import CheckHarness.LineStore.Service
import CheckHarness.Proofs.LineStore.Exchange

namespace CheckHarness

/-- In the text of a chain id there are neither blanks nor line ends. -/
theorem ChainId.le_toNat_of_mem_render {chain : ChainId} {c : Char}
    (hc : c ∈ chain.render.toList) : 48 ≤ c.toNat := by
  have hkind : ∀ other ∈ chain.kind.name.toList, 48 ≤ other.toNat := by
    cases chain.kind <;> simp [ChainKind.name]
  have hpart : ∀ letter n, 48 ≤ letter.toNat → ∀ other ∈ part letter n, 48 ≤ other.toNat := by
    intro letter n hletter other hother
    simp only [part, List.mem_cons] at hother
    rcases hother with rfl | rfl | hdigit
    · decide
    · exact hletter
    · exact (Numeral.toNat_of_isDigit (Numeral.isDigit_of_mem_digits hdigit)).1
  rw [render, String.toList_ofList] at hc
  simp only [List.mem_append] at hc
  rcases hc with (((hc | hc) | hc) | hc) | hc
  · exact hkind c hc
  · exact hpart 's' chain.service (by decide) c hc
  · exact hpart 'r' chain.round (by decide) c hc
  · exact hpart 't' chain.team (by decide) c hc
  · exact hpart 'i' chain.variant (by decide) c hc

theorem ChainId.not_mem_render {chain : ChainId} {c : Char} (hc : c.toNat < 48) :
    c ∉ chain.render.toList :=
  fun hmem => Nat.not_le_of_lt hc (le_toNat_of_mem_render hmem)

/-- The text of a chain id is one word of a request, of which nothing is lost with a line end. -/
theorem ChainId.ne_of_mem_render {chain : ChainId} {c : Char} (hc : c ∈ chain.render.toList) :
    c ≠ ' ' ∧ c ≠ '\r' :=
  ⟨ne_of_mem_of_not_mem hc (not_mem_render (by decide)),
    ne_of_mem_of_not_mem hc (not_mem_render (by decide))⟩

namespace LineStore.Service

/-- A line is split at the first blank. -/
theorem splitBlank_append {word rest : Bytes} (hword : 0x20 ∉ word) :
    splitBlank (word ++ 0x20 :: rest) = (word, some rest) := by
  have hpasses : ∀ byte ∈ word, (byte != 0x20) = true := by
    intro byte hbyte
    rw [bne_iff_ne]
    rintro rfl
    exact hword hbyte
  rw [splitBlank, List.dropWhile_append_of_pos hpasses, List.takeWhile_append_of_pos hpasses]
  simp

theorem splitBlank_of_not_mem {word : Bytes} (hword : 0x20 ∉ word) :
    splitBlank word = (word, none) := by
  have hrest : word.dropWhile (· != 0x20) = [] := by
    rw [List.dropWhile_eq_nil_iff]
    intro byte hbyte
    rw [bne_iff_ne]
    rintro rfl
    exact hword hbyte
  rw [splitBlank, hrest]

/-- A request of three words is split into these. -/
theorem words_three {first second third : Bytes} (hfirst : 0x20 ∉ first) (hsecond : 0x20 ∉ second) :
    words (first ++ 0x20 :: (second ++ 0x20 :: third)) = [first, second, third] := by
  rw [words, splitBlank_append hfirst]
  dsimp only
  rw [splitBlank_append hsecond]

theorem words_two {first second : Bytes} (hfirst : 0x20 ∉ first) (hsecond : 0x20 ∉ second) :
    words (first ++ 0x20 :: second) = [first, second] := by
  rw [words, splitBlank_append hfirst]
  dsimp only
  rw [splitBlank_of_not_mem hsecond]

/-- A line loses its line feed, and a carriage return before it. -/
theorem content_concat (bytes : Bytes) :
    content (bytes ++ [0x0A]) = if bytes.getLast? = some 0x0D then bytes.dropLast else bytes := by
  simp only [content, List.getLast?_concat, List.dropLast_concat, if_true]

/-- A text that does not end with a carriage return is all that is left of its line. -/
theorem content_line {text : String} (hlast : text.toList.getLast? ≠ some '\r') :
    content (Bytes.ofText (text ++ "\n")) = Bytes.ofText text := by
  have hline : Bytes.ofText (text ++ "\n") = Bytes.ofText text ++ [0x0A] := Bytes.ofText_append _ _
  have hreturn : (Bytes.ofText text).getLast? ≠ some 0x0D := by
    rw [Bytes.ofText_eq_ofChars]
    exact Bytes.getLast?_ofChars_ne (by decide) hlast
  rw [hline, content_concat, if_neg hreturn]

variable {key : String} (contents : Contents)

/-- The store keeps the value under the key. -/
theorem respond_set {value : String} (hkey : ' ' ∉ key.toList)
    (hvalue : value.toList.getLast? ≠ some '\r') :
    respond contents (Request.set key value).line =
      (Bytes.ofText "OK" ++ [0x0A], (Bytes.ofText key, Bytes.ofText value) :: contents) := by
  have hlast : (Request.set key value).text.toList.getLast? ≠ some '\r' := by
    simp only [Request.text, String.toList_append, List.getLast?_append]
    cases hend : value.toList.getLast? with
    | some c =>
      rw [hend] at hvalue
      simpa using hvalue
    | none => simp
  have hsplit : Bytes.ofText (Request.set key value).text =
      Bytes.ofText "SET" ++ 0x20 :: (Bytes.ofText key ++ 0x20 :: Bytes.ofText value) := by
    simp only [Request.text, Bytes.ofText_append, List.append_assoc]
    rfl
  have hblank : 0x20 ∉ Bytes.ofText key := Bytes.not_mem_ofText (by decide) hkey
  simp only [respond, answer, Request.line, content_line hlast, hsplit,
    words_three (by decide : 0x20 ∉ Bytes.ofText "SET") hblank, if_true]

/-- The store answers with what it has under the key. -/
theorem respond_get (hkey : ∀ c ∈ key.toList, c ≠ ' ' ∧ c ≠ '\r') :
    respond contents (Request.get key).line =
      ((contents.lookup (Bytes.ofText key)).getD [] ++ [0x0A], contents) := by
  have hlast : (Request.get key).text.toList.getLast? ≠ some '\r' := by
    intro hreturn
    have hmem := List.mem_of_getLast? hreturn
    simp only [Request.text, String.toList_append, List.mem_append] at hmem
    rcases hmem with hmem | hmem
    · exact absurd hmem (by decide)
    · exact (hkey _ hmem).2 rfl
  have hsplit : Bytes.ofText (Request.get key).text =
      Bytes.ofText "GET" ++ 0x20 :: Bytes.ofText key := by
    simp only [Request.text, Bytes.ofText_append]
    rfl
  have hblank : 0x20 ∉ Bytes.ofText key :=
    Bytes.not_mem_ofText (by decide) fun hmem => (hkey _ hmem).1 rfl
  simp only [respond, answer, Request.line, content_line hlast, hsplit,
    words_two (by decide : 0x20 ∉ Bytes.ofText "GET") hblank, if_true]

theorem respond_ping : respond contents Request.ping.line = (Bytes.ofText "PONG" ++ [0x0A], contents) := by
  have hwords : words (content Request.ping.line) = [Bytes.ofText "PING"] := by decide
  simp only [respond, answer, hwords, if_true]

end LineStore.Service

end CheckHarness
