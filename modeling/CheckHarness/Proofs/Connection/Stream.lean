import CheckHarness.Proofs.Connection.Receiving

namespace CheckHarness

namespace Receive

/-- What is asked for comes first in the stream: so many bytes, or all up to the end of the first
occurrence of the delimiter, which lies within the capacity of the buffer. -/
def Yields (capacity : Nat) (stream received rest : Bytes) : Receive → Prop
  | .exact n => stream = received ++ rest ∧ received.length = n
  | .until delimiter =>
    stream = received ++ rest ∧ received.length ≤ capacity ∧
      ∃ place, FirstOccursAt delimiter stream place ∧ received.length = place + delimiter.length

theorem splitAt_eq_iff {stream received rest : Bytes} {n : Nat} (hn : n ≤ stream.length) :
    stream.splitAt n = (received, rest) ↔ stream = received ++ rest ∧ received.length = n := by
  rw [List.splitAt_eq, Prod.mk.injEq]
  constructor
  · rintro ⟨rfl, rfl⟩
    exact ⟨(List.take_append_drop n stream).symm, List.length_take_of_le hn⟩
  · rintro ⟨rfl, rfl⟩
    exact ⟨List.take_left, List.drop_left⟩

/-- A number of bytes is received just if that many are there. -/
theorem fromStream?_exact_eq_some_iff {capacity n : Nat} {stream received rest : Bytes} :
    (exact n).fromStream? capacity stream = some (received, rest) ↔
      (exact n).Yields capacity stream received rest := by
  simp only [fromStream?, Yields, Option.ite_none_right_eq_some, Option.some.injEq]
  constructor
  · rintro ⟨hn, hsplit⟩
    exact (splitAt_eq_iff hn).mp hsplit
  · rintro ⟨rfl, rfl⟩
    have hn : received.length ≤ (received ++ rest).length := by simp
    exact ⟨hn, (splitAt_eq_iff hn).mpr ⟨rfl, rfl⟩⟩

/-- A delimiter is received just if it occurs early enough. -/
theorem fromStream?_until_eq_some_iff {capacity : Nat} {delimiter stream received rest : Bytes}
    (hdelimiter : delimiter ≠ []) :
    («until» delimiter).fromStream? capacity stream = some (received, rest) ↔
      («until» delimiter).Yields capacity stream received rest := by
  constructor
  · intro hreceived
    simp only [fromStream?] at hreceived
    split at hreceived
    · rename_i found hfound
      simp only [Option.ite_none_right_eq_some, Option.some.injEq] at hreceived
      obtain ⟨hcapacity, hsplit⟩ := hreceived
      have hle := endOfFirst?_le_length hdelimiter hfound
      obtain ⟨hstream, rfl⟩ := (splitAt_eq_iff hle).mp hsplit
      exact ⟨hstream, hcapacity, (endOfFirst?_eq_some_iff hdelimiter).mp hfound⟩
    · cases hreceived
  · rintro ⟨hstream, hcapacity, hplace⟩
    have hfound := (endOfFirst?_eq_some_iff hdelimiter).mpr hplace
    have hle := endOfFirst?_le_length hdelimiter hfound
    simp only [fromStream?, hfound, if_pos hcapacity]
    rw [(splitAt_eq_iff hle).mpr ⟨hstream, rfl⟩]

/-- A delimiter that does not lie in the first part of the stream does not help, if this is all of
the stream or as much as the buffer holds. -/
theorem fromStream?_until_eq_none {capacity : Nat} {delimiter buffer more : Bytes}
    (hdelimiter : delimiter ≠ []) (habsent : endOfFirst? delimiter 0 buffer = none)
    (hend : more = [] ∨ capacity ≤ buffer.length) :
    («until» delimiter).fromStream? capacity (buffer ++ more) = none := by
  simp only [fromStream?]
  split
  · rename_i found hfound
    have hle := endOfFirst?_le_length hdelimiter hfound
    rw [if_neg]
    intro hcapacity
    have hbuffer : found ≤ buffer.length := by
      rcases hend with rfl | hfull
      · simpa using hle
      · omega
    rw [endOfFirst?_append_eq_some_iff hdelimiter hbuffer, habsent] at hfound
    cases hfound
  · rfl

/-- A receive that succeeds leaves the rest to the others. -/
theorem allFromStream_of_some {capacity : Nat} {stream received rest : Bytes} {receive : Receive}
    (hroom : receive.room < Bytes.roomBound)
    (hreceived : receive.fromStream? capacity stream = some (received, rest))
    (receives : List Receive) :
    allFromStream capacity (some stream) (receive :: receives) =
      .received received :: allFromStream capacity (some rest) receives := by
  simp only [allFromStream, if_neg (Nat.not_le_of_lt hroom), hreceived]

/-- A receive that fails leaves nothing to the others. -/
theorem allFromStream_of_none {capacity : Nat} {stream : Bytes} {receive : Receive}
    (hroom : receive.room < Bytes.roomBound)
    (hreceived : receive.fromStream? capacity stream = none) (receives : List Receive) :
    allFromStream capacity (some stream) (receive :: receives) =
      .failed :: allFromStream capacity none receives := by
  simp only [allFromStream, if_neg (Nat.not_le_of_lt hroom), hreceived]

end Receive

namespace Receiving

/-- What a receive under way was asked for. -/
def request : Receiving → Receive
  | .exact n _ _ => .exact n
  | .until scanner _ => .until scanner.delimiter

theorem request_withStage (stage : ReceiveStage) (receiving : Receiving) :
    (receiving.withStage stage).request = receiving.request := by
  cases receiving <;> rfl

namespace Transition

variable {pipe nextPipe : Pipe} {receiving next : Receiving}

theorem request_eq (hsound : receiving.Sound pipe)
    (htransition : Transition pipe receiving (.continues next nextPipe)) :
    next.request = receiving.request := by
  cases htransition with
  | untilFind hscan =>
    obtain ⟨-, rfl⟩ := Scanner.Missed.of_scan_some hsound.consistent hscan
    rfl
  | untilPark hscan _ _ =>
    obtain ⟨-, hdelimiter, -⟩ := Scanner.Missed.of_scan_none hsound.consistent hscan
    simp only [request, hdelimiter]
  | park | wake => exact receiving.request_withStage _
  | _ => rfl

/-- A receive that ends returns what the stream yields. -/
theorem fromStream?_of_done {data : Bytes} (hsound : receiving.Sound pipe)
    (hfits : pipe.buffer.length ≤ pipe.capacity)
    (htransition : Transition pipe receiving (.done data nextPipe)) (more : Bytes) :
    receiving.request.fromStream? pipe.capacity (receiving.taken ++ pipe.buffer ++ more) =
      some (data, nextPipe.buffer ++ more) := by
  have hstream : receiving.taken ++ pipe.buffer ++ more = data ++ (nextPipe.buffer ++ more) := by
    rw [← htransition.data_append_buffer, List.append_assoc]
  cases htransition with
  | @exactDone n _ henough =>
    have hle : data.length ≤ n := hsound.consistent
    exact Receive.fromStream?_exact_eq_some_iff.mpr ⟨hstream, by omega⟩
  | @untilTake scanner index =>
    obtain ⟨-, hfound⟩ := hsound.consistent
    have hle := endOfFirst?_le_length scanner.delimiter_ne_nil hfound
    have hlength : (pipe.take index).1.length = index := List.length_take_of_le hle
    have hwhole : endOfFirst? scanner.delimiter 0 (pipe.buffer ++ more) = some index :=
      (endOfFirst?_append_eq_some_iff scanner.delimiter_ne_nil hle).mpr hfound
    refine (Receive.fromStream?_until_eq_some_iff scanner.delimiter_ne_nil).mpr ⟨hstream, by omega, ?_⟩
    rw [hlength]
    exact (endOfFirst?_eq_some_iff scanner.delimiter_ne_nil).mp hwhole

/-- A receive breaks only where the stream yields nothing. -/
theorem fromStream?_of_broken {cause : String} {more : Bytes} (hsound : receiving.Sound pipe)
    (hmore : pipe.completed = true → more = [])
    (htransition : Transition pipe receiving (.broken cause)) :
    receiving.request.fromStream? pipe.capacity (receiving.taken ++ pipe.buffer ++ more) = none := by
  cases htransition with
  | exactEnd hshort hbuffer hcompleted =>
    simp only [request, Receiving.taken, Receive.fromStream?, hbuffer, hmore hcompleted, List.append_nil]
    rw [if_neg (by omega)]
  | @untilEnd scanner next hscan hcompleted =>
    obtain ⟨habsent, -⟩ := Scanner.Missed.of_scan_none hsound.consistent hscan
    exact Receive.fromStream?_until_eq_none scanner.delimiter_ne_nil habsent (.inl (hmore hcompleted))
  | @untilFull scanner next hscan hfull =>
    obtain ⟨habsent, -⟩ := Scanner.Missed.of_scan_none hsound.consistent hscan
    exact Receive.fromStream?_until_eq_none scanner.delimiter_ne_nil habsent (.inr hfull)

end Transition

end Receiving

end CheckHarness
