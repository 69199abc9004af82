import CheckHarness.Proofs.LineStore.Storage

namespace CheckHarness

/-- What a task asks of the store, by its method: nothing about another key than its own, and
nothing to be stored but its own value. -/
inductive Task.Asks (task : Task) : Bytes → Prop where
  | ping (hmethod : task.method = .havoc) : Asks task (Bytes.ofText "PING\n")
  | get (hmethod : task.method = .getFlag ∨ task.method = .getNoise) :
    Asks task (Bytes.ofText ("GET " ++ task.chain.render ++ "\n"))
  | set {value} (hstores : task.stores = some value) :
    Asks task (Bytes.ofText ("SET " ++ task.chain.render ++ " " ++ value ++ "\n"))

/-- What a task asks for is the request that it sends. -/
theorem Task.asks_storeRequest (task : Task) : task.Asks task.storeRequest.line := by
  unfold storeRequest
  cases hmethod : task.method with
  | putFlag | putNoise => exact .set (by rw [stores, hmethod])
  | getFlag => exact .get (.inl hmethod)
  | getNoise => exact .get (.inr hmethod)
  | havoc => exact .ping hmethod

namespace LineStore

/-- A text and a line feed make one line if the text has none. -/
theorem isLine_ofText_iff {text : String} :
    IsLine (Bytes.ofText (text ++ "\n")) ↔ '\n' ∉ text.toList := by
  have hline : Bytes.ofText (text ++ "\n") = Bytes.ofText text ++ [0x0A] := Bytes.ofText_append _ _
  have hfeed : 0x0A ∈ Bytes.ofText text ↔ '\n' ∈ text.toList := by
    rw [Bytes.ofText_eq_ofChars]
    exact Bytes.mem_ofChars_iff (c := '\n') (by decide)
  constructor
  · rintro ⟨before, hbefore, habsent⟩
    rw [hline] at hbefore
    rwa [← List.append_inj_left' hbefore rfl, hfeed] at habsent
  · intro habsent
    exact ⟨Bytes.ofText text, hline, fun hmem => habsent (hfeed.mp hmem)⟩

/-- A request goes over several lines just if it stores a flag that does. -/
theorem mem_text_storeRequest_iff {task : Task} :
    '\n' ∈ task.storeRequest.text.toList ↔
      task.method = .putFlag ∧ ∃ flag, task.flag = some flag ∧ '\n' ∈ flag.toList := by
  have hkey : '\n' ∉ task.chain.render.toList := ChainId.not_mem_render (by decide)
  have hnoise : '\n' ∉ (Noise.ofChain task.chain.render).toList := fun hmem =>
    absurd (Noise.toNat_of_mem_ofChain hmem).1 (by decide)
  unfold Task.storeRequest
  cases task.method with
  | putFlag => cases task.flag <;> simp [Request.text, hkey]
  | putNoise | getFlag | getNoise | havoc => simp [Request.text, hkey, hnoise]

namespace Service

variable {line rest : Bytes} (contents : Contents)

theorem lines_append (hline : IsLine line) : lines (line ++ rest) = line :: lines rest := by
  obtain ⟨before, rfl, hbefore⟩ := hline
  induction before with
  | nil => rfl
  | cons byte before ih =>
    simp only [List.mem_cons, not_or] at hbefore
    obtain ⟨hbyte, hbefore⟩ := hbefore
    simp only [List.cons_append, lines, if_neg (Ne.symm hbyte), ih hbefore]

theorem lines_eq_singleton (hline : IsLine line) : lines line = [line] := by
  have hlines := @lines_append line [] hline
  rwa [List.append_nil] at hlines

/-- The commands of a stream that begins with a line are executed after this line. -/
theorem serve_append (hline : IsLine line) :
    serve contents (line ++ rest) =
      ((respond contents line).1 ++ (serve (respond contents line).2 rest).1,
        (serve (respond contents line).2 rest).2) := by
  rw [serve, lines_append hline]
  rfl

theorem serve_eq_respond (hline : IsLine line) : serve contents line = respond contents line := by
  rw [serve, lines_eq_singleton hline]
  simp only [respondAll, List.append_nil]

/-- What is kept of the value at the end of a line: one carriage return is lost with the line end.
-/
def Keeps (value kept : Bytes) : Prop :=
  value = kept ∨ value = kept ++ [0x0D]

/-- Of a line that has a blank, nothing up to the blank is lost with the line end. -/
theorem exists_content_append (before after : Bytes) :
    ∃ kept, Keeps after kept ∧
      content (before ++ 0x20 :: after ++ [0x0A]) = before ++ 0x20 :: kept := by
  rw [content_concat]
  rcases List.eq_nil_or_concat after with rfl | ⟨kept, byte, rfl⟩
  · exact ⟨[], .inl rfl, by simp⟩
  · have hlast : before ++ 0x20 :: (kept ++ [byte]) = (before ++ 0x20 :: kept) ++ [byte] := by simp
    rw [List.concat_eq_append, hlast, List.getLast?_concat, List.dropLast_concat]
    split
    · rename_i hreturn
      cases hreturn
      exact ⟨kept, .inr rfl, rfl⟩
    · exact ⟨kept ++ [byte], .inl rfl, hlast.symm⟩

/-- Whatever the value is, it is stored under this key. -/
theorem exists_respond_set {key value : String} (hkey : ' ' ∉ key.toList) :
    ∃ stored, Keeps (Bytes.ofText value) stored ∧
      respond contents (Request.set key value).line =
        (Bytes.ofText "OK" ++ [0x0A], (Bytes.ofText key, stored) :: contents) := by
  have hsplit : (Request.set key value).line =
      Bytes.ofText "SET" ++ 0x20 :: Bytes.ofText key ++ 0x20 :: Bytes.ofText value ++ [0x0A] := by
    have hcommand : Bytes.ofText "SET " = Bytes.ofText "SET" ++ [0x20] := by decide
    simp only [Request.line, Request.text, Bytes.ofText_append, hcommand, List.append_assoc,
      List.cons_append, List.nil_append]
    rfl
  have hblank : 0x20 ∉ Bytes.ofText key := Bytes.not_mem_ofText (by decide) hkey
  have hcommand : 0x20 ∉ Bytes.ofText "SET" := by decide
  obtain ⟨stored, hkeeps, hcontent⟩ :=
    exists_content_append (Bytes.ofText "SET" ++ 0x20 :: Bytes.ofText key) (Bytes.ofText value)
  rw [← hsplit] at hcontent
  refine ⟨stored, hkeeps, ?_⟩
  simp only [respond, answer, hcontent, List.append_assoc, List.cons_append,
    words_three hcommand hblank, if_true]

/-- A request changes nothing under another key than its own. -/
theorem lookup_respond_storeRequest (task : Task) {key : Bytes}
    (hkey : key ≠ Bytes.ofText task.chain.render) :
    (respond contents task.storeRequest.line).2.lookup key = contents.lookup key := by
  have hset : ∀ value, (respond contents (Request.set task.chain.render value).line).2.lookup key =
      contents.lookup key := by
    intro value
    obtain ⟨stored, -, hrespond⟩ :=
      @exists_respond_set contents task.chain.render value (ChainId.not_mem_render (by decide))
    rw [hrespond, List.lookup_cons, beq_eq_false_iff_ne.mpr hkey]
  unfold Task.storeRequest
  cases task.method with
  | putFlag | putNoise => exact hset _
  | getFlag | getNoise => rw [respond_get contents fun _ => ChainId.ne_of_mem_render]
  | havoc => rw [respond_ping]

end Service

/-- What a valid task makes the store do. The checker sends a command about the task's own key and
its own value, as the protocol has it. It is on one line just if it does not store a flag with a
line feed in it. On one line, it is the only command that the store executes, and nothing changes
under another key. Otherwise the store executes what stands before the first line feed of the flag
as the task's command, and all that follows it as further commands, whatever it is. -/
theorem sends_own_line_iff {task : Task} (hvalid : task.Valid) :
    (∀ options port network, (checker options port network).operationFor task =
      operation options (network task.address port task.storeRequest.line) task) ∧
    task.Asks task.storeRequest.line ∧
    (IsLine task.storeRequest.line ↔
      ¬ (task.method = .putFlag ∧ ∃ flag, task.flag = some flag ∧ '\n' ∈ flag.toList)) ∧
    (IsLine task.storeRequest.line →
      Service.lines task.storeRequest.line = [task.storeRequest.line] ∧
      ∀ contents key, key ≠ Bytes.ofText task.chain.render →
        (Service.serve contents task.storeRequest.line).2.lookup key = contents.lookup key) ∧
    ∀ head tail, task.method = .putFlag → task.flag = some (head ++ "\n" ++ tail) →
      '\n' ∉ head.toList →
        Service.lines task.storeRequest.line =
          (Request.set task.chain.render head).line :: Service.lines (Bytes.ofText (tail ++ "\n")) ∧
        ∀ contents, ∃ stored, Service.Keeps (Bytes.ofText head) stored ∧
          (Service.serve contents task.storeRequest.line).2 =
            (Service.serve ((Bytes.ofText task.chain.render, stored) :: contents)
              (Bytes.ofText (tail ++ "\n"))).2 := by
  refine ⟨?_, task.asks_storeRequest, ?_, ?_, ?_⟩
  · intro options port network
    simp only [Checker.operationFor, checker, exchange_of_consistent hvalid.consistent]
    rfl
  · rw [Request.line, isLine_ofText_iff, mem_text_storeRequest_iff]
  · intro hline
    refine ⟨Service.lines_eq_singleton hline, ?_⟩
    intro contents key hkey
    rw [Service.serve_eq_respond contents hline]
    exact Service.lookup_respond_storeRequest contents task hkey
  · intro head tail hmethod hflag hhead
    have hkey : '\n' ∉ task.chain.render.toList := ChainId.not_mem_render (by decide)
    have hblank : ' ' ∉ task.chain.render.toList := ChainId.not_mem_render (by decide)
    have hfirst : IsLine (Request.set task.chain.render head).line := by
      rw [Request.line, isLine_ofText_iff]
      simp [Request.text, hkey, hhead]
    -- The line feed of the flag ends the request, and what follows it begins another.
    have hsplit : task.storeRequest.line =
        (Request.set task.chain.render head).line ++ Bytes.ofText (tail ++ "\n") := by
      simp only [Task.storeRequest, hmethod, hflag, Option.getD_some, Request.line, Request.text,
        Bytes.ofText_append, List.append_assoc]
    rw [hsplit]
    refine ⟨Service.lines_append hfirst, ?_⟩
    intro contents
    obtain ⟨stored, hkeeps, hrespond⟩ :=
      @Service.exists_respond_set contents task.chain.render head hblank
    refine ⟨stored, hkeeps, ?_⟩
    rw [Service.serve_append contents hfirst, hrespond]

/-- The flag of a single line is one command. -/
theorem sends_own_line_iff_plain :
    Execution.secondTask.Valid ∧
      Service.lines Execution.secondTask.storeRequest.line =
        [Bytes.ofText "SET flag_s1_r1_t1_i0 flag\n"] := by
  have hvalid : Execution.secondTask.Valid := ⟨Execution.secondTask.toRequest, rfl⟩
  obtain ⟨-, -, hline, hone, -⟩ := sends_own_line_iff hvalid
  refine ⟨hvalid, (hone (hline.mpr ?_)).1⟩
  rintro ⟨-, flag, ⟨⟩, hfeed⟩
  exact absurd hfeed (by decide)

/-- A put whose flag goes on with a command about the chain of another team. -/
def overwritingTask : Task :=
  { Execution.secondTask with flag := some "x\nSET flag_s1_r1_t2_i0 y" }

/-- The request of a valid task is two lines, and the store executes both: the second one writes
under the key of another chain. -/
theorem serve_overwritingTask :
    overwritingTask.Valid ∧ overwritingTask.chain ≠ ⟨.flag, 1, 1, 2, 0⟩ ∧
      ¬ IsLine overwritingTask.storeRequest.line ∧
      Service.serve [] overwritingTask.storeRequest.line =
        (Bytes.ofText "OK\nOK\n",
          [(Bytes.ofText (ChainId.render ⟨.flag, 1, 1, 2, 0⟩), Bytes.ofText "y"),
            (Bytes.ofText overwritingTask.chain.render, Bytes.ofText "x")]) := by
  refine ⟨⟨overwritingTask.toRequest, rfl⟩, by decide, ?_, by decide +kernel⟩
  rw [Request.line, isLine_ofText_iff]
  decide

end LineStore

end CheckHarness
