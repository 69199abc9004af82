import CheckHarness.LineStore.Checker
import CheckHarness.Proofs.Execution.Report
import CheckHarness.Proofs.LineStore.Line
import CheckHarness.Proofs.Task.Validation
import CheckHarness.Proofs.Text.Encoding

namespace CheckHarness

namespace Task

/-- What a task asks of the store. -/
def storeRequest (task : Task) : LineStore.Request :=
  match task.method with
  | .putFlag => .set task.chain.render (task.flag.getD "")
  | .putNoise => .set task.chain.render (Noise.ofChain task.chain.render)
  | .getFlag | .getNoise => .get task.chain.render
  | .havoc => .ping

/-- The answer of a store that works. -/
def expectedText (task : Task) : String :=
  match task.method with
  | .putFlag | .putNoise => "OK"
  | .getFlag => task.flag.getD ""
  | .getNoise => Noise.ofChain task.chain.render
  | .havoc => "PONG"

/-- What attackers are told when the store works. -/
def published (task : Task) : Option String :=
  match task.method with
  | .putFlag | .putNoise => some task.chain.render
  | .getFlag | .getNoise | .havoc => none

end Task

/-- The complaint about a store that answers something else. -/
def Method.complaint : Method → String
  | .putFlag | .putNoise => "Unexpected response to SET"
  | .getFlag => "Flag not found"
  | .getNoise => "Noise not found"
  | .havoc => "Unexpected response to PING"

namespace LineStore

variable {task : Task}

/-- The exchange of a task that lacks nothing. -/
def exchangeOf (task : Task) : Exchange :=
  ⟨task.storeRequest, task.expectedText, task.method.complaint, task.published⟩

/-- No valid task lacks the flag that its method needs. -/
theorem exchange_of_consistent (hconsistent : task.Consistent) :
    exchange task = .ok (exchangeOf task) := by
  have hflag : task.method.requiresFlag = true →
      requiredFlag task = .ok (task.flag.getD "") := by
    intro hmethod
    obtain ⟨flag, hflag, -⟩ := hconsistent.exists_flag hmethod
    simp only [requiredFlag, hflag, Option.getD_some]
  simp only [exchange, exchangeOf, Task.storeRequest, Task.expectedText, Task.published]
  cases hmethod : task.method with
  | putFlag | getFlag =>
    rw [hmethod] at hflag
    simp only [hflag rfl]
    rfl
  | putNoise | getNoise | havoc => rfl

/-- The line is the expected text, apart from carriage returns and line feeds at its end. -/
def Agrees (line : Bytes) (expected : String) : Prop :=
  ∃ text tail : List Char, line = Bytes.ofChars (text ++ tail) ∧
    (∀ c ∈ tail, c = '\r' ∨ c = '\n') ∧
    (∀ h : text ≠ [], text.getLast h ≠ '\r' ∧ text.getLast h ≠ '\n') ∧
    String.ofList text = expected

/-- An answer that agrees is a success. -/
theorem judge_of_agrees {exchange : Exchange} {line : Bytes}
    (hagrees : Agrees line exchange.expected) :
    exchange.judge line = .ok (.success exchange.attackInfo) := by
  obtain ⟨text, tail, rfl, htail, hlast, hexpected⟩ := hagrees
  have htext : Bytes.text? (Bytes.ofChars (text ++ tail)) = some (String.ofList (text ++ tail)) :=
    Bytes.text?_eq_some_iff.mpr (Bytes.ofText_ofList _).symm
  have htrim : trimLineEnd (text ++ tail) = text := trimLineEnd_eq_iff.mpr ⟨tail, rfl, htail, hlast⟩
  rw [Exchange.judge, htext]
  simp only [String.toList_ofList, htrim]
  rw [if_pos hexpected]

theorem judge_of_disagrees {exchange : Exchange} {text : String}
    (hdisagrees : ¬ Agrees (Bytes.ofText text) exchange.expected) :
    exchange.judge (Bytes.ofText text) = .ok (.mumble exchange.complaint) := by
  obtain ⟨tail, htext, htail, hlast⟩ := trimLineEnd_eq_iff.mp (Eq.refl (trimLineEnd text.toList))
  rw [Exchange.judge, Bytes.text?_ofText]
  dsimp only
  rw [if_neg]
  intro hexpected
  refine hdisagrees ⟨trimLineEnd text.toList, tail, ?_, htail, hlast, hexpected⟩
  rw [← htext, Bytes.ofText_eq_ofChars]

theorem judge_of_invalid {exchange : Exchange} {line : Bytes}
    (hinvalid : ∀ text, line ≠ Bytes.ofText text) :
    exchange.judge line = .error (.mumble "Service returned invalid UTF-8") := by
  have htext : Bytes.text? line = none := by
    cases htext : Bytes.text? line with
    | none => rfl
    | some text => exact absurd (Bytes.text?_eq_some_iff.mp htext) (hinvalid text)
  rw [Exchange.judge, htext]

end LineStore

end CheckHarness
