import CheckHarness.Connection.Pipe

namespace CheckHarness

namespace Pipe

/-- What the producer may make of a pipe. -/
structure Extends (pipe next : Pipe) : Prop where
  capacity : next.capacity = pipe.capacity
  buffer : pipe.buffer <+: next.buffer
  permit : next.readable = true ∨
    (next.buffer = pipe.buffer ∧ next.completed = pipe.completed ∧ next.readable = pipe.readable)

namespace Extends

theorem refl (pipe : Pipe) : pipe.Extends pipe :=
  ⟨rfl, List.prefix_refl _, .inr ⟨rfl, rfl, rfl⟩⟩

theorem commit (pipe : Pipe) (data : Bytes) : pipe.Extends (pipe.commit data) :=
  ⟨rfl, List.prefix_append _ _, .inl rfl⟩

theorem complete (pipe : Pipe) : pipe.Extends pipe.complete :=
  ⟨rfl, List.prefix_refl _, .inl rfl⟩

theorem pollWritable (pipe : Pipe) : pipe.Extends pipe.pollWritable.2 :=
  ⟨rfl, List.prefix_refl _, .inr ⟨rfl, rfl, rfl⟩⟩

end Extends

/-- What the consumer may make of a pipe. -/
structure Drains (pipe next : Pipe) : Prop where
  capacity : next.capacity = pipe.capacity
  buffer : next.buffer <:+ pipe.buffer
  completed : next.completed = pipe.completed
  permit : next.writable = true ∨
    (next.buffer = pipe.buffer ∧ next.writable = pipe.writable)

namespace Drains

theorem refl (pipe : Pipe) : pipe.Drains pipe :=
  ⟨rfl, List.suffix_refl _, rfl, .inr ⟨rfl, rfl⟩⟩

theorem take (pipe : Pipe) (n : Nat) : pipe.Drains (pipe.take n).2 where
  capacity := rfl
  buffer := List.drop_suffix n pipe.buffer
  completed := rfl
  permit := by
    cases htaken : pipe.buffer.take n with
    | nil =>
      have hbuffer : pipe.buffer.drop n = pipe.buffer := by
        have h := List.take_append_drop n pipe.buffer
        rwa [htaken, List.nil_append] at h
      exact .inr ⟨hbuffer, by simp [Pipe.take, htaken]⟩
    | cons byte rest => exact .inl (by simp [Pipe.take, htaken])

theorem pollReadable (pipe : Pipe) : pipe.Drains pipe.pollReadable.2 :=
  ⟨rfl, List.suffix_refl _, rfl, .inr ⟨rfl, rfl⟩⟩

end Drains

end Pipe

end CheckHarness
