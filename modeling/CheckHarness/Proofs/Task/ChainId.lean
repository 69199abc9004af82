import CheckHarness.Task.ChainId
import CheckHarness.Proofs.Text.Numeral

namespace CheckHarness

/-- A kind of chain is read from its name and from no other text. -/
theorem ChainKind.ofName?_eq_some_iff {name : String} {kind : ChainKind} :
    ofName? name = some kind ↔ name = kind.name := by
  constructor
  · intro hfound
    have hname := List.find?_some hfound
    exact (beq_iff_eq.mp hname).symm
  · rintro rfl
    cases kind <;> decide

namespace ChainId

/-- The four numbers of a chain id as they are written. -/
structure Numerals where
  service : List Char
  round : List Char
  team : List Char
  variant : List Char

namespace Numerals

variable (numerals : Numerals)

/-- The text of a chain id with these numbers. -/
def text (kind : ChainKind) : String :=
  kind.name ++ "_s" ++ String.ofList numerals.service ++ "_r" ++ String.ofList numerals.round ++
    "_t" ++ String.ofList numerals.team ++ "_i" ++ String.ofList numerals.variant

/-- The numbers are those of the chain. -/
structure Denote (chain : ChainId) : Prop where
  service : Numeral.Denotes numerals.service chain.service.toNat
  round : Numeral.Denotes numerals.round chain.round.toNat
  team : Numeral.Denotes numerals.team chain.team.toNat
  variant : Numeral.Denotes numerals.variant chain.variant.toNat

/-- No number has a sign or a superfluous zero. -/
structure Shortest : Prop where
  service : Numeral.Shortest numerals.service
  round : Numeral.Shortest numerals.round
  team : Numeral.Shortest numerals.team
  variant : Numeral.Shortest numerals.variant

/-- What lies between the underscores. -/
def parts (kind : ChainKind) : List (List Char) :=
  [kind.name.toList, 's' :: numerals.service, 'r' :: numerals.round, 't' :: numerals.team,
    'i' :: numerals.variant]

theorem toList_text (kind : ChainKind) :
    (numerals.text kind).toList = ['_'].intercalate (numerals.parts kind) := by
  simp [text, parts, List.intercalate]

variable {numerals} {chain : ChainId}

/-- No part has an underscore in it, so the text is split into its parts. -/
theorem Denote.splitOn_text (hdenote : numerals.Denote chain) (kind : ChainKind) :
    (numerals.text kind).toList.splitOn '_' = numerals.parts kind := by
  rw [toList_text]
  refine List.splitOn_intercalate '_' ?_ (List.cons_ne_nil _ _)
  have hkind : '_' ∉ kind.name.toList := by
    cases kind <;> decide
  have hnumeral : ∀ letter chars n, letter ≠ '_' → Numeral.Denotes chars n →
      '_' ∉ letter :: chars := by
    intro letter chars n hletter hchars
    rw [List.mem_cons, not_or]
    exact ⟨hletter.symm, hchars.not_mem (by decide) (by decide)⟩
  simp only [parts, List.forall_mem_cons]
  exact ⟨hkind, hnumeral _ _ _ (by decide) hdenote.service,
    hnumeral _ _ _ (by decide) hdenote.round, hnumeral _ _ _ (by decide) hdenote.team,
    hnumeral _ _ _ (by decide) hdenote.variant, List.forall_mem_nil _⟩

end Numerals

/-- A part is its letter and a numeral behind it. -/
theorem partValue?_eq_some_iff {letter : Char} {part : List Char} {n : UInt64} :
    partValue? letter part = some n ↔
      ∃ chars, part = letter :: chars ∧ Numeral.Denotes chars n.toNat := by
  have hvalue : ∀ chars, (Numeral.parse UInt64.size chars).toOption.map UInt64.ofNat = some n ↔
      Numeral.Denotes chars n.toNat := by
    intro chars
    constructor
    · intro hread
      cases hparse : Numeral.parse UInt64.size chars with
      | error fault =>
        rw [hparse] at hread
        cases hread
      | ok m =>
        rw [hparse] at hread
        obtain rfl := Option.some.inj hread
        obtain ⟨hdenotes, hlimit⟩ := (Numeral.parse_eq_ok_iff (by decide)).mp hparse
        rwa [UInt64.toNat_ofNat_of_lt' hlimit]
    · intro hdenotes
      rw [(Numeral.parse_eq_ok_iff (by decide)).mpr ⟨hdenotes, n.toNat_lt⟩]
      exact congrArg some UInt64.ofNat_toNat
  cases part with
  | nil => simp [partValue?]
  | cons c chars =>
    rw [partValue?]
    by_cases hletter : c = letter
    · rw [if_pos hletter, hvalue]
      simp [hletter]
    · rw [if_neg hletter]
      simp [hletter]

/-- The text names the chain: it holds the kind, then the four numbers after their letters. -/
def Names (text : String) (chain : ChainId) : Prop :=
  ∃ numerals : Numerals, numerals.Denote chain ∧ text = numerals.text chain.kind

variable {text : String} {chain : ChainId}

/-- A chain id is read from the texts that name it, and from no others. -/
theorem ofText?_eq_some_iff : ofText? text = some chain ↔ Names text chain := by
  constructor
  · intro hread
    rw [ofText?] at hread
    split at hread
    · rename_i kind service round team variant hsplit
      simp only [Option.bind_eq_bind, Option.bind_eq_some_iff, partValue?_eq_some_iff,
        ChainKind.ofName?_eq_some_iff, Option.pure_def, Option.some.injEq] at hread
      obtain ⟨kind, hkind, _, ⟨service, rfl, hservice⟩, _, ⟨round, rfl, hround⟩, _,
        ⟨team, rfl, hteam⟩, _, ⟨variant, rfl, hvariant⟩, rfl⟩ := hread
      refine ⟨⟨service, round, team, variant⟩, ⟨hservice, hround, hteam, hvariant⟩, ?_⟩
      have hjoin : ['_'].intercalate (text.toList.splitOn '_') = text.toList :=
        List.intercalate_splitOn '_'
      apply String.toList_inj.mp
      rw [← hjoin, hsplit, Numerals.toList_text, Numerals.parts, ← hkind, String.toList_ofList]
    · cases hread
  · rintro ⟨numerals, hdenote, rfl⟩
    have hvalue : ∀ letter {chars} {n : UInt64}, Numeral.Denotes chars n.toNat →
        partValue? letter (letter :: chars) = some n :=
      fun _ {_ _} hchars => partValue?_eq_some_iff.mpr ⟨_, rfl, hchars⟩
    rw [ofText?, hdenote.splitOn_text]
    simp only [Numerals.parts, String.ofList_toList, ChainKind.ofName?_eq_some_iff.mpr rfl,
      hvalue 's' hdenote.service, hvalue 'r' hdenote.round, hvalue 't' hdenote.team,
      hvalue 'i' hdenote.variant]
    rfl

/-- The texts that are read are those that name a chain, and they are read as this chain. -/
theorem parse_eq_ok_iff : parse text = .ok chain ↔ Names text chain := by
  rw [← ofText?_eq_some_iff, parse]
  cases ofText? text <;> simp

/-- A text that names no chain is refused with the text in the message. -/
theorem parse_eq_error (hnames : ¬ ∃ chain, Names text chain) :
    parse text =
      .error (.validation "taskChainId" ("malformed task chain id '" ++ text ++ "'")) := by
  have hread : ofText? text = none := by
    rw [Option.eq_none_iff_forall_ne_some]
    intro chain hread
    exact hnames ⟨chain, ofText?_eq_some_iff.mp hread⟩
  rw [parse, hread]

/-- The numbers of a chain id as they are written for it. -/
def numerals (chain : ChainId) : Numerals :=
  ⟨Numeral.digits chain.service.toNat, Numeral.digits chain.round.toNat,
    Numeral.digits chain.team.toNat, Numeral.digits chain.variant.toNat⟩

theorem denote_numerals (chain : ChainId) : chain.numerals.Denote chain :=
  ⟨Numeral.denotes_digits _, Numeral.denotes_digits _, Numeral.denotes_digits _,
    Numeral.denotes_digits _⟩

/-- A chain id is written with the shortest numerals. -/
theorem render_eq_text (chain : ChainId) : chain.render = chain.numerals.text chain.kind := by
  apply String.toList_inj.mp
  simp [render, part, numerals, Numerals.text]

/-- A chain id is read back from what is written for it. -/
theorem parse_render (chain : ChainId) : parse chain.render = .ok chain :=
  parse_eq_ok_iff.mpr ⟨chain.numerals, chain.denote_numerals, chain.render_eq_text⟩

/-- No two chain ids are written alike. -/
theorem render_injective {chain other : ChainId} (h : chain.render = other.render) :
    chain = other := by
  have hread := congrArg parse h
  simpa only [parse_render, Except.ok.injEq] using hread

/-- The same text has the same numbers in it. -/
theorem Numerals.Denote.eq_of_text_eq {numerals others : Numerals} {other : ChainId}
    {kind : ChainKind} (hdenote : numerals.Denote chain) (hothers : others.Denote other)
    (htext : numerals.text kind = others.text kind) : numerals = others := by
  have hparts := hdenote.splitOn_text kind
  rw [htext, hothers.splitOn_text, Numerals.parts, Numerals.parts] at hparts
  cases numerals
  cases others
  simp_all

/-- The shortest numerals are those that are written. -/
theorem Numerals.Denote.shortest_iff {numerals : Numerals} (hdenote : numerals.Denote chain) :
    numerals.Shortest ↔ numerals = chain.numerals := by
  constructor
  · intro hshortest
    cases numerals
    rw [ChainId.numerals, Numerals.mk.injEq]
    exact ⟨hdenote.service.eq_digits_iff.mpr hshortest.service,
      hdenote.round.eq_digits_iff.mpr hshortest.round,
      hdenote.team.eq_digits_iff.mpr hshortest.team,
      hdenote.variant.eq_digits_iff.mpr hshortest.variant⟩
  · rintro rfl
    exact ⟨Numeral.shortest_digits _, Numeral.shortest_digits _, Numeral.shortest_digits _,
      Numeral.shortest_digits _⟩

/-- The text that is written for the chain which a text names. -/
def normalize (text : String) : Except Fault String :=
  (parse text).map render

/-- Whatever numerals a text has, its chain id is written in one way. -/
theorem normalize_of_names (hnames : Names text chain) : normalize text = .ok chain.render := by
  rw [normalize, parse_eq_ok_iff.mpr hnames]
  rfl

/-- A text in its one form stays as it is. -/
theorem normalize_bind_normalize (text : String) :
    (normalize text >>= normalize) = normalize text := by
  unfold normalize
  cases parse text with
  | error fault => rfl
  | ok chain => simp only [Except.map, bind, Except.bind, parse_render]

/-- What is written for a chain id is read as it, and a text is read just if it names a chain. It is
written again as it was if its numbers have no signs and no superfluous zeros; after that nothing
changes any more. -/
theorem parse_decided :
    (∀ chain : ChainId, parse chain.render = .ok chain) ∧
    (∀ chain other : ChainId, chain ≠ other → chain.render ≠ other.render) ∧
    (∀ text chain, parse text = .ok chain ↔ Names text chain) ∧
    (∀ text, (¬ ∃ chain, Names text chain) → parse text =
      .error (.validation "taskChainId" ("malformed task chain id '" ++ text ++ "'"))) ∧
    (∀ chain (numerals : Numerals), numerals.Denote chain →
      (normalize (numerals.text chain.kind) = .ok (numerals.text chain.kind) ↔
        numerals.Shortest)) ∧
    ∀ text, (normalize text >>= normalize) = normalize text := by
  refine ⟨parse_render, ?_, fun _ _ => parse_eq_ok_iff, fun _ => parse_eq_error, ?_,
    normalize_bind_normalize⟩
  · intro chain other hne hrender
    exact hne (render_injective hrender)
  · intro chain numerals hdenote
    rw [normalize_of_names ⟨numerals, hdenote, rfl⟩, Except.ok.injEq, hdenote.shortest_iff,
      render_eq_text]
    constructor
    · intro htext
      exact (chain.denote_numerals.eq_of_text_eq hdenote htext).symm
    · rintro rfl
      rfl

/-- A sign and zeros in front are read over and written no more; a number of 2^64 is not read. -/
theorem parse_decided_signed :
    (∃ numerals : Numerals, numerals.text .noise = "noise_s+007_r0_t18446744073709551615_i1" ∧
      numerals.Denote ⟨.noise, 7, 0, 18446744073709551615, 1⟩ ∧
      normalize (numerals.text .noise) ≠ .ok (numerals.text .noise)) ∧
    parse "flag_s1_r2_t3_i18446744073709551616" = .error (.validation "taskChainId"
      "malformed task chain id 'flag_s1_r2_t3_i18446744073709551616'") := by
  obtain ⟨-, -, hread, hunread, hsame, -⟩ := parse_decided
  constructor
  · have hdenote : Numerals.Denote
        ⟨['+', '0', '0', '7'], ['0'], "18446744073709551615".toList, ['1']⟩
        ⟨.noise, 7, 0, 18446744073709551615, 1⟩ :=
      ⟨.signed (by decide), .unsigned (by decide), .unsigned (by decide), .unsigned (by decide)⟩
    refine ⟨_, by decide, hdenote, fun hnormal => ?_⟩
    exact ((hsame _ _ hdenote).mp hnormal).service.unsigned rfl
  · refine hunread _ ?_
    rintro ⟨chain, hnames⟩
    have hfault := (hread _ _).mpr hnames
    cases hfault

end ChainId

end CheckHarness
