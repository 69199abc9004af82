import CheckHarness.LineStore.Session
import CheckHarness.Proofs.LineStore.Service
import CheckHarness.Proofs.LineStore.Verdict
import CheckHarness.Proofs.Task.Noise

namespace CheckHarness.LineStore

/-- A text that comes back as it was stored: it is on one line, at whose end no carriage return is
lost, and the line fits into the buffer. -/
structure OneLine (capacity : Nat) (text : String) : Prop where
  noFeed : '\n' ∉ text.toList
  noReturn : text.toList.getLast? ≠ some '\r'
  fits : (Bytes.ofText text).length < capacity

namespace OneLine

variable {capacity : Nat} {text : String}

theorem mono {larger : Nat} (hle : capacity ≤ larger) (honeLine : OneLine capacity text) :
    OneLine larger text :=
  ⟨honeLine.noFeed, honeLine.noReturn, Nat.lt_of_lt_of_le honeLine.fits hle⟩

theorem isLine (honeLine : OneLine capacity text) : IsLine (Bytes.ofText text ++ [0x0A]) :=
  ⟨Bytes.ofText text, rfl, Bytes.not_mem_ofText (by decide) honeLine.noFeed⟩

theorem length_le (honeLine : OneLine capacity text) :
    (Bytes.ofText text ++ [0x0A]).length ≤ capacity := by
  have hfits := honeLine.fits
  rw [List.length_append, List.length_singleton]
  omega

/-- An answer of one line decides the conversation. -/
theorem decided {options : ConnectOptions} (honeLine : OneLine options.capacity text)
    (ends : Bool) : Conversation.Decided options (Bytes.ofText text ++ [0x0A]) ends := by
  left
  rw [List.take_of_length_le honeLine.length_le]
  exact List.mem_append_right _ List.mem_cons_self

/-- Nothing is trimmed off such a text but its line end. -/
theorem trimLineEnd_eq (honeLine : OneLine capacity text) :
    trimLineEnd (text.toList ++ ['\n']) = text.toList := by
  refine trimLineEnd_eq_iff.mpr ⟨['\n'], rfl, by simp, ?_⟩
  intro hne
  constructor
  · intro hreturn
    apply honeLine.noReturn
    rw [List.getLast?_eq_some_getLast hne, hreturn]
  · intro hfeed
    apply honeLine.noFeed
    rw [← hfeed]
    exact List.getLast_mem hne

/-- The line agrees with what is expected if it is the same text. -/
theorem agrees_iff (honeLine : OneLine capacity text) {expected : String} :
    Agrees (Bytes.ofText (text ++ "\n")) expected ↔ text = expected := by
  have htext : Bytes.ofText (text ++ "\n") = Bytes.ofChars (text.toList ++ ['\n']) := by
    rw [Bytes.ofText_eq_ofChars, String.toList_append]
    rfl
  obtain ⟨tail, hsplit, htail, hlast⟩ := trimLineEnd_eq_iff.mp honeLine.trimLineEnd_eq
  constructor
  · rintro ⟨kept, other, hline, hother, hkept, rfl⟩
    rw [htext, ← Bytes.ofText_ofList, ← Bytes.ofText_ofList] at hline
    have hchars := String.ofList_injective (Bytes.ofText_injective hline)
    have htrim := trimLineEnd_eq_iff.mpr ⟨other, hchars, hother, hkept⟩
    rw [honeLine.trimLineEnd_eq] at htrim
    rw [← htrim, String.ofList_toList]
  · rintro rfl
    refine ⟨text.toList, tail, ?_, htail, hlast, String.ofList_toList⟩
    rw [htext, hsplit]

end OneLine

/-- The report of a task that is answered with the given text. -/
def reportOfText (task : Task) (text : String) : Report :=
  if text = task.expectedText then ⟨.ok, none, task.published⟩
  else ⟨.mumble, some task.method.complaint, none⟩

/-- The report about an answer of one line depends on its text. -/
theorem reportOf_oneLine {options : ConnectOptions} {task : Task} {text : String}
    (honeLine : OneLine options.capacity text) :
    reportOf task (heard options (Bytes.ofText text ++ [0x0A])) = reportOfText task text := by
  have hline : Bytes.ofText text ++ [0x0A] = Bytes.ofText (text ++ "\n") := by
    rw [Bytes.ofText_append]
    rfl
  have hstream := (List.append_nil (Bytes.ofText text ++ [0x0A])).symm
  unfold reportOfText
  by_cases hexpected : text = task.expectedText
  · rw [if_pos hexpected]
    have hagrees := honeLine.agrees_iff.mpr hexpected
    rw [← hline] at hagrees
    have hjudged : Judged task options.capacity _ true _ :=
      .agrees hstream honeLine.isLine honeLine.length_le hagrees
    exact hjudged.eq_reportOf.symm
  · rw [if_neg hexpected]
    have hdisagrees := fun hagrees => hexpected (honeLine.agrees_iff.mp hagrees)
    have hisLine := honeLine.isLine
    have hlength := honeLine.length_le
    rw [hline] at hstream hisLine hlength ⊢
    have hjudged : Judged task options.capacity _ true _ :=
      .disagrees hstream hisLine hlength hdisagrees
    exact hjudged.eq_reportOf.symm

end LineStore

namespace Task

/-- What a task leaves with the store, under the text of its chain. -/
def stores (task : Task) : Option String :=
  match task.method with
  | .putFlag => some (task.flag.getD "")
  | .putNoise => some (Noise.ofChain task.chain.render)
  | .getFlag | .getNoise | .havoc => none

/-- A valid task that works on a flag which a store can give back on one line. -/
structure Tame (capacity : Nat) (task : Task) : Prop where
  valid : task.Valid
  flag : task.method.requiresFlag = true →
    ∀ flag, task.flag = some flag → LineStore.OneLine capacity flag

variable {task : Task} {capacity : Nat}

theorem Tame.consistent (htame : task.Tame capacity) : task.Consistent :=
  htame.valid.consistent

end Task

namespace LineStore

variable {capacity : Nat} {task : Task} {before : List Task} {chain : ChainId} {text : String}

/-- A noise is always one line. -/
theorem oneLine_noise (hcapacity : 23 ≤ capacity) (key : String) :
    OneLine capacity (Noise.ofChain key) := by
  have hchar : ∀ c ∈ (Noise.ofChain key).toList, 45 ≤ c.toNat := fun c hc =>
    (Noise.toNat_of_mem_ofChain hc).1
  refine ⟨?_, ?_, ?_⟩
  · intro hfeed
    exact absurd (hchar _ hfeed) (by decide)
  · intro hreturn
    exact absurd (hchar _ (List.mem_of_getLast? hreturn)) (by decide)
  · rw [Noise.length_ofText_ofChain]
    omega

/-- What a put stores comes back as it is. -/
theorem oneLine_of_stores (hcapacity : 23 ≤ capacity) (htame : task.Tame capacity)
    (hstores : task.stores = some text) : OneLine capacity text := by
  unfold Task.stores at hstores
  cases hmethod : task.method with
  | putFlag =>
    have hrequires : task.method.requiresFlag = true := by rw [hmethod]; rfl
    obtain ⟨flag, hflag, -⟩ := htame.consistent.exists_flag hrequires
    simp only [hmethod, hflag, Option.getD_some, Option.some.injEq] at hstores
    rw [← hstores]
    exact htame.flag hrequires flag hflag
  | putNoise =>
    simp only [hmethod, Option.some.injEq] at hstores
    rw [← hstores]
    exact oneLine_noise hcapacity _
  | getFlag | getNoise | havoc => simp [hmethod] at hstores

/-- What an honest store answers, which holds the given text for the task's chain. -/
def answerTo (task : Task) (held : Option String) : String :=
  match task.method with
  | .putFlag | .putNoise => "OK"
  | .getFlag | .getNoise => held.getD ""
  | .havoc => "PONG"

/-- The store answers with one line if it holds one. -/
theorem oneLine_answerTo (hcapacity : 23 ≤ capacity) {held : Option String}
    (hheld : ∀ text, held = some text → OneLine capacity text) :
    OneLine capacity (answerTo task held) := by
  have hempty : OneLine 23 "" := ⟨by decide, by decide, by decide⟩
  have hok : OneLine 23 "OK" := ⟨by decide, by decide, by decide⟩
  have hpong : OneLine 23 "PONG" := ⟨by decide, by decide, by decide⟩
  unfold answerTo
  cases task.method with
  | putFlag | putNoise => exact hok.mono hcapacity
  | getFlag | getNoise =>
    cases held with
    | none => exact hempty.mono hcapacity
    | some text => exact hheld text rfl
  | havoc => exact hpong.mono hcapacity

/-- The contents with a text under a key, if there is one. -/
def Contents.keep (contents : Contents) (key : String) : Option String → Contents
  | some text => (Bytes.ofText key, Bytes.ofText text) :: contents
  | none => contents

/-- What is kept for a chain is found for this chain only. -/
theorem lookup_keep (contents : Contents) (stored : Option String) (other : ChainId) :
    (contents.keep chain.render stored).lookup (Bytes.ofText other.render) =
      (((if chain = other then stored else none).map Bytes.ofText).or
        (contents.lookup (Bytes.ofText other.render))) := by
  cases stored with
  | none => simp [Contents.keep]
  | some text =>
    rw [Contents.keep, List.lookup_cons]
    by_cases hchain : chain = other
    · simp [hchain]
    · have hkey : (Bytes.ofText other.render == Bytes.ofText chain.render) = false := by
        rw [beq_eq_false_iff_ne]
        intro hsame
        exact hchain (ChainId.render_injective (Bytes.ofText_injective hsame)).symm
      simp only [hkey, hchain, if_false, Option.map_none, Option.none_or]

/-- A task is answered from what is held for its chain, and a put is kept. -/
theorem respond_storeRequest (hcapacity : 23 ≤ capacity) (htame : task.Tame capacity)
    {contents : Contents} {held : Option String}
    (hheld : contents.lookup (Bytes.ofText task.chain.render) = held.map Bytes.ofText) :
    Service.respond contents task.storeRequest.line =
      (Bytes.ofText (answerTo task held) ++ [0x0A],
        contents.keep task.chain.render task.stores) := by
  have hvalue := fun text (hstores : task.stores = some text) =>
    (oneLine_of_stores hcapacity htame hstores).noReturn
  unfold Task.stores at hvalue
  unfold Task.storeRequest answerTo Task.stores
  cases hmethod : task.method with
  | putFlag | putNoise =>
    rw [hmethod] at hvalue
    exact Service.respond_set contents (ChainId.not_mem_render (by decide)) (hvalue _ rfl)
  | getFlag | getNoise =>
    simp only [Service.respond_get contents fun _ => ChainId.ne_of_mem_render, hheld]
    cases held <;> rfl
  | havoc => exact Service.respond_ping contents

/-- What a store that started empty holds after tasks. -/
def heldAfter (before : List Task) : Contents :=
  before.foldl Contents.after []

/-- The last task on a chain that stored something. -/
def lastPut? (chain : ChainId) (before : List Task) : Option Task :=
  ((before.filter (·.chain = chain)).filter (·.stores.isSome)).getLast?

/-- What the last put on a chain has stored. -/
def found? (chain : ChainId) (before : List Task) : Option String :=
  (lastPut? chain before).bind Task.stores

/-- A task hides what its chain held before. -/
theorem found?_concat : found? chain (before ++ [task]) =
    (if task.chain = chain then task.stores else none).or (found? chain before) := by
  unfold found? lastPut?
  by_cases hchain : task.chain = chain <;> cases hstores : task.stores <;> simp [hchain, hstores]

theorem oneLine_of_found? (hcapacity : 23 ≤ capacity)
    (hbefore : ∀ task ∈ before, task.Tame capacity) (hfound : found? chain before = some text) :
    OneLine capacity text := by
  obtain ⟨put, hput, hstores⟩ := Option.bind_eq_some_iff.mp hfound
  have hmem := List.mem_of_mem_filter (List.mem_of_mem_filter (List.mem_of_getLast? hput))
  exact oneLine_of_stores hcapacity (hbefore put hmem) hstores

theorem heldAfter_concat (hconsistent : task.Consistent) : heldAfter (before ++ [task]) =
    (Service.respond (heldAfter before) task.storeRequest.line).2 := by
  rw [heldAfter, List.foldl_concat, Contents.after, exchange_of_consistent hconsistent]
  rfl

/-- Under the text of a chain there is what its last put has stored. -/
theorem lookup_heldAfter (hcapacity : 23 ≤ capacity)
    (hbefore : ∀ task ∈ before, task.Tame capacity) (chain : ChainId) :
    (heldAfter before).lookup (Bytes.ofText chain.render) =
      (found? chain before).map Bytes.ofText := by
  induction before using List.reverseRecOn generalizing chain with
  | nil => rfl
  | append_singleton before task ih =>
    have htame := hbefore task (by simp)
    have hheld := ih fun other hother => hbefore other (List.mem_append_left _ hother)
    rw [heldAfter_concat htame.consistent, respond_storeRequest hcapacity htame (hheld _),
      lookup_keep, hheld, found?_concat, Option.map_or]

/-- What an honest store answers a task that comes after others. -/
def answerText (before : List Task) (task : Task) : String :=
  answerTo task (found? task.chain before)

/-- The store answers with what is found on the chain. -/
theorem respond_heldAfter (hcapacity : 23 ≤ capacity)
    (hbefore : ∀ task ∈ before, task.Tame capacity) (htame : task.Tame capacity) :
    (Service.respond (heldAfter before) task.storeRequest.line).1 =
      Bytes.ofText (answerText before task) ++ [0x0A] := by
  rw [respond_storeRequest hcapacity htame (lookup_heldAfter hcapacity hbefore _)]
  rfl

theorem oneLine_answerText (hcapacity : 23 ≤ capacity)
    (hbefore : ∀ task ∈ before, task.Tame capacity) (task : Task) :
    OneLine capacity (answerText before task) :=
  oneLine_answerTo hcapacity fun _ => oneLine_of_found? hcapacity hbefore

/-- What a task reports that is performed after others. -/
theorem report_heldAfter {options : ConnectOptions} (hcapacity : 23 ≤ options.capacity)
    (hfits : options.Fits) (hbefore : ∀ task ∈ before, task.Tame options.capacity) (htame : task.Tame options.capacity) :
    report options (heldAfter before) task = reportOfText task (answerText before task) := by
  have honeLine := oneLine_answerText hcapacity hbefore task
  have hanswer := respond_heldAfter hcapacity hbefore htame
  rw [report, report_perform htame.valid hfits (honeLine.decided false), reportOf_oneLine honeLine]
  rw [Contents.peer, hanswer]

end LineStore

end CheckHarness
