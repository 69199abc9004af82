import CheckHarness.Proofs.Connection.Search
import Mathlib.Data.List.Chain

namespace CheckHarness

/-- The bytes from one place to another, if the text has both places, in this order. -/
def Bytes.slice? (text : Bytes) (start stop : Nat) : Option Bytes :=
  if start ≤ stop ∧ stop ≤ text.length then some ((text.take stop).drop start) else none

theorem Bytes.slice?_add {text : Bytes} {start length : Nat} (hstop : start + length ≤ text.length) :
    Bytes.slice? text start (start + length) = some ((text.drop start).take length) := by
  rw [Bytes.slice?, if_pos ⟨Nat.le_add_right start length, hstop⟩, List.drop_take,
    Nat.add_sub_cancel_left]

theorem Bytes.slice?_length {text : Bytes} {start : Nat} (hstart : start ≤ text.length) :
    Bytes.slice? text start text.length = some (text.drop start) := by
  rw [Bytes.slice?, if_pos ⟨hstart, Nat.le_refl _⟩, List.take_length]

/-- The delimiter does not lie anywhere in the text. -/
def Lacks (delimiter text : Bytes) : Prop :=
  ∀ place, ¬ OccursAt delimiter text place

variable {delimiter text : Bytes}

/-- The search finds nothing just in a text without the delimiter. -/
theorem endOfFirst?_eq_none_iff (hdelimiter : delimiter ≠ []) {index : Nat} :
    endOfFirst? delimiter index text = none ↔ Lacks delimiter text := by
  refine ⟨fun hfound place => endOfFirst?_eq_none hdelimiter hfound place, fun hlacks => ?_⟩
  cases hfound : endOfFirst? delimiter index text with
  | none => rfl
  | some found =>
    obtain ⟨place, hfirst, -⟩ := endOfFirst?_eq_some hfound
    exact absurd hfirst.1 (hlacks place)

/-- A text that is too short lacks the delimiter. -/
theorem lacks_of_length_lt (hdelimiter : delimiter ≠ []) (hlength : text.length < delimiter.length) :
    Lacks delimiter text := by
  intro place hoccurs
  have hend := hoccurs.end_le hdelimiter
  omega

/-- The place where a text begins is added to what is found in it. -/
theorem endOfFirst?_add (start index : Nat) :
    endOfFirst? delimiter (start + index) text =
      (endOfFirst? delimiter index text).map (start + ·) := by
  induction text generalizing index with
  | nil => rfl
  | cons byte text ih =>
    rw [endOfFirst?, endOfFirst?]
    split
    · rw [Option.map_some, Nat.add_assoc]
    · rw [Nat.add_assoc, ih]

theorem OccursAt.slice? (hdelimiter : delimiter ≠ []) {place : Nat}
    (hoccurs : OccursAt delimiter text place) :
    Bytes.slice? text place (place + delimiter.length) = some delimiter := by
  rw [Bytes.slice?_add (hoccurs.end_le hdelimiter), ← List.prefix_iff_eq_take.mp hoccurs]

/-- Where the delimiter ends in the first of so many windows that holds it. Each window has to lie
in the text. -/
def searchWindows? (delimiter text : Bytes) (place : Nat) : Nat → Option (Option Nat)
  | 0 => some none
  | windows + 1 => do
    let window ← Bytes.slice? text place (place + delimiter.length)
    if window = delimiter then some (some (place + delimiter.length))
    else searchWindows? delimiter text (place + 1) windows

/-- Looking at every window finds what the search finds, and looks at no byte that is not there. -/
theorem searchWindows?_eq (hdelimiter : delimiter ≠ []) {place windows : Nat}
    (hwindows : windows = text.length - place + 1 - delimiter.length) :
    searchWindows? delimiter text place windows =
      some (endOfFirst? delimiter place (text.drop place)) := by
  have hpos := List.length_pos_iff.mpr hdelimiter
  -- No window is left just if the rest of the text is shorter than the delimiter.
  induction windows generalizing place with
  | zero =>
    have hlacks : Lacks delimiter (text.drop place) :=
      lacks_of_length_lt hdelimiter (by rw [List.length_drop]; omega)
    rw [searchWindows?, (endOfFirst?_eq_none_iff hdelimiter).mpr hlacks]
  | succ windows ih =>
    have hplace : place < text.length := by omega
    have hrest : windows = text.length - (place + 1) + 1 - delimiter.length := by omega
    rw [searchWindows?, Bytes.slice?_add (by omega), Option.bind_eq_bind, Option.bind_some, ih hrest,
      List.drop_eq_getElem_cons hplace, endOfFirst?]
    have hwindow : (text[place] :: text.drop (place + 1)).take delimiter.length = delimiter ↔
        delimiter.isPrefixOf (text[place] :: text.drop (place + 1)) = true := by
      rw [List.isPrefixOf_iff_prefix, List.prefix_iff_eq_take, eq_comm]
    simp only [hwindow]
    split <;> rfl

namespace Scanner

/-- The search, as it looks at the buffer: first at all that comes after the start, then at one
window of this after the other. Nothing comes of it if it looks outside. -/
def scanWindows? (scanner : Scanner) (buffer : Bytes) : Option (Option Nat × Scanner) := do
  let start := scanner.start buffer
  let rest ← Bytes.slice? buffer start buffer.length
  match ← searchWindows? scanner.delimiter rest 0 (rest.length + 1 - scanner.delimiter.length) with
  | some index => return (some (start + index), scanner)
  | none => return (none, { scanner with scanned := buffer.length })

theorem scanWindows?_eq (scanner : Scanner) (buffer : Bytes) :
    scanner.scanWindows? buffer = some (scanner.scan buffer) := by
  have hstart : scanner.start buffer ≤ buffer.length := Nat.min_le_right _ _
  have hadd : endOfFirst? scanner.delimiter (scanner.start buffer)
      (buffer.drop (scanner.start buffer)) =
      (endOfFirst? scanner.delimiter 0 (buffer.drop (scanner.start buffer))).map
        (scanner.start buffer + ·) := endOfFirst?_add _ 0
  simp only [scanWindows?, scan, Bytes.slice?_length hstart, Option.bind_eq_bind, Option.bind_some]
  rw [searchWindows?_eq scanner.delimiter_ne_nil (by omega), List.drop_zero, hadd]
  cases endOfFirst? scanner.delimiter 0 (buffer.drop (scanner.start buffer)) <;> rfl

@[simp]
theorem scan_delimiter (scanner : Scanner) (buffer : Bytes) :
    (scanner.scan buffer).2.delimiter = scanner.delimiter := by
  simp only [scan]
  split <;> rfl

variable {scanner : Scanner}

/-- What is found is an occurrence, even if the buffer is not one that the scanner knows. -/
theorem occurs_of_scan {buffer : Bytes} {stop : Nat} (hscan : (scanner.scan buffer).1 = some stop) :
    ∃ place, OccursAt scanner.delimiter buffer place ∧ stop = place + scanner.delimiter.length := by
  have hfound : endOfFirst? scanner.delimiter (scanner.start buffer)
      (buffer.drop (scanner.start buffer)) = some stop := by
    rw [← hscan, scan]
    split
    · rename_i hsome
      exact hsome
    · rename_i hnone
      exact hnone
  obtain ⟨place, ⟨hoccurs, -⟩, rfl⟩ := endOfFirst?_eq_some hfound
  refine ⟨scanner.start buffer + place, ?_, rfl⟩
  rwa [OccursAt, List.drop_drop] at hoccurs

/-- What the searches in the buffers find, one after the other, with the scanner after each. -/
def scanAll (scanner : Scanner) : List Bytes → List (Option Nat × Scanner)
  | [] => []
  | buffer :: buffers => scanner.scan buffer :: scanAll (scanner.scan buffer).2 buffers

/-- The same searches, as they look at the buffers. -/
def scanAllWindows? (scanner : Scanner) : List Bytes → Option (List (Option Nat × Scanner))
  | [] => some []
  | buffer :: buffers => do
    let first ← scanner.scanWindows? buffer
    let later ← scanAllWindows? first.2 buffers
    return first :: later

theorem scanAllWindows?_eq (scanner : Scanner) (buffers : List Bytes) :
    scanner.scanAllWindows? buffers = some (scanner.scanAll buffers) := by
  induction buffers generalizing scanner with
  | nil => rfl
  | cons buffer buffers ih =>
    rw [scanAllWindows?, scanWindows?_eq, Option.bind_eq_bind, Option.bind_some, ih]
    rfl

/-- Every search is one of some scanner for the same delimiter. -/
theorem exists_scan_of_scanAll (scanner : Scanner) {buffers : List Bytes} {k : Nat}
    {buffer : Bytes} (hbuffer : buffers[k]? = some buffer) :
    ∃ before : Scanner, before.delimiter = scanner.delimiter ∧
      (scanner.scanAll buffers)[k]? = some (before.scan buffer) := by
  induction buffers generalizing scanner k with
  | nil => cases hbuffer
  | cons first buffers ih =>
    cases k with
    | zero =>
      cases hbuffer
      exact ⟨scanner, rfl, rfl⟩
    | succ k =>
      obtain ⟨before, hdelimiter, hscan⟩ := ih (scanner.scan first).2 hbuffer
      exact ⟨before, hdelimiter.trans (scan_delimiter scanner first), hscan⟩

end Scanner

/-- The length of the longest buffer in which the delimiter does not lie; zero if there is none. -/
structure LongestMiss (delimiter : Bytes) (buffers : List Bytes) (length : Nat) : Prop where
  upper : ∀ buffer ∈ buffers, Lacks delimiter buffer → buffer.length ≤ length
  attained : length = 0 ∨ ∃ buffer ∈ buffers, Lacks delimiter buffer ∧ buffer.length = length

namespace LongestMiss

variable {buffers : List Bytes} {length : Nat} {buffer : Bytes}

theorem nil (delimiter : Bytes) : LongestMiss delimiter [] 0 :=
  ⟨nofun, .inl rfl⟩

theorem concat_of_hit (hlongest : LongestMiss delimiter buffers length)
    (hhit : ¬ Lacks delimiter buffer) : LongestMiss delimiter (buffers ++ [buffer]) length where
  upper := by
    intro other hother hlacks
    rcases List.mem_append.mp hother with hother | hother
    · exact hlongest.upper other hother hlacks
    · rw [List.mem_singleton.mp hother] at hlacks
      exact absurd hlacks hhit
  attained := by
    rcases hlongest.attained with hzero | ⟨other, hother, hrest⟩
    · exact .inl hzero
    · exact .inr ⟨other, List.mem_append_left _ hother, hrest⟩

theorem concat_of_miss (hlongest : LongestMiss delimiter buffers length)
    (hlength : length ≤ buffer.length) (hmiss : Lacks delimiter buffer) :
    LongestMiss delimiter (buffers ++ [buffer]) buffer.length where
  upper := by
    intro other hother hlacks
    rcases List.mem_append.mp hother with hother | hother
    · exact Nat.le_trans (hlongest.upper other hother hlacks) hlength
    · exact Nat.le_of_eq (congrArg List.length (List.mem_singleton.mp hother))
  attained := .inr ⟨buffer, by simp, hmiss, rfl⟩

end LongestMiss

namespace Scanner

/-- What a scanner knows when it comes to a buffer: it has searched in others, and up to where it
has searched in vain the delimiter does not lie in this one either. -/
structure Knows (scanner : Scanner) (searched : List Bytes) (buffer : Bytes) : Prop where
  missed : scanner.Missed buffer
  longest : LongestMiss scanner.delimiter searched scanner.scanned

namespace Knows

variable {scanner : Scanner} {searched buffers : List Bytes} {buffer : Bytes}

/-- A scanner that knows its buffers finds what a search from the start would find. -/
theorem scan (hknows : scanner.Knows searched buffer) :
    (scanner.scan buffer).1 = endOfFirst? scanner.delimiter 0 buffer ∧
      (scanner.scan buffer).2.Knows (searched ++ [buffer]) buffer := by
  have hnone := @endOfFirst?_eq_none_iff _ buffer scanner.delimiter_ne_nil 0
  rcases hscan : scanner.scan buffer with ⟨_ | stop, next⟩
  · obtain ⟨hfound, hdelimiter, hscanned, hmissed⟩ := hknows.missed.of_scan_none hscan
    refine ⟨hfound.symm, hmissed, ?_⟩
    rw [hdelimiter, hscanned]
    exact hknows.longest.concat_of_miss hknows.missed.scanned_le (hnone.mp hfound)
  · obtain ⟨hfound, rfl⟩ := hknows.missed.of_scan_some hscan
    refine ⟨hfound.symm, hknows.missed, hknows.longest.concat_of_hit fun hlacks => ?_⟩
    rw [hnone.mpr hlacks] at hfound
    cases hfound

theorem grow (hknows : scanner.Knows searched buffer) {larger : Bytes} (hgrow : buffer <+: larger) :
    scanner.Knows searched larger := by
  obtain ⟨more, rfl⟩ := hgrow
  exact ⟨hknows.missed.append more, hknows.longest⟩

/-- A scanner that knows the first of several buffers knows each of them when it comes to it, as
long as they only grow. -/
theorem scanAll (hknows : ∀ first ∈ buffers.head?, scanner.Knows searched first)
    (hgrow : buffers.IsChain (· <+: ·)) {k : Nat} (hbuffer : buffers[k]? = some buffer) :
    ∃ next, (scanner.scanAll buffers)[k]? =
        some (endOfFirst? scanner.delimiter 0 buffer, next) ∧
      LongestMiss scanner.delimiter (searched ++ buffers.take (k + 1)) next.scanned := by
  -- A search leaves a scanner that knows its buffer, hit or miss, and so the next, larger one.
  induction buffers generalizing scanner searched k with
  | nil => cases hbuffer
  | cons first buffers ih =>
    obtain ⟨hfound, hnext⟩ := (hknows first rfl).scan
    cases k with
    | zero =>
      cases hbuffer
      refine ⟨(scanner.scan buffer).2, ?_, ?_⟩
      · rw [← hfound]
        rfl
      · have hlongest := hnext.longest
        rwa [scan_delimiter] at hlongest
    | succ k =>
      obtain ⟨hfirst, hgrow⟩ := List.isChain_cons.mp hgrow
      obtain ⟨next, hscan, hlongest⟩ :=
        ih (fun second hsecond => hnext.grow (hfirst second hsecond)) hgrow hbuffer
      rw [scan_delimiter] at hscan hlongest
      refine ⟨next, hscan, ?_⟩
      rwa [List.append_assoc, List.singleton_append] at hlongest

end Knows

/-- The searches of a new scanner. In buffers each of which begins with the one before, every search
finds the end of the first occurrence in its buffer, if there is one there, and the scanner
remembers the longest buffer without. In any buffers, no search looks outside of its buffer, and
what is found is the end of an occurrence that lies in it. -/
theorem scanAll_decided {delimiter : Bytes} (hdelimiter : delimiter ≠ []) :
    ∃ scanner, ofDelimiter? delimiter = some scanner ∧
      (∀ buffers : List Bytes, buffers.IsChain (· <+: ·) → ∀ k buffer, buffers[k]? = some buffer →
        ∃ found next, (scanner.scanAll buffers)[k]? = some (found, next) ∧
          (∀ stop, found = some stop ↔
            ∃ place, FirstOccursAt delimiter buffer place ∧ stop = place + delimiter.length) ∧
          (found = none ↔ Lacks delimiter buffer) ∧
          LongestMiss delimiter (buffers.take (k + 1)) next.scanned) ∧
      ∀ buffers : List Bytes, scanner.scanAllWindows? buffers = some (scanner.scanAll buffers) ∧
        ∀ (k : Nat) buffer stop next, buffers[k]? = some buffer →
          (scanner.scanAll buffers)[k]? = some (some stop, next) →
          delimiter.length ≤ stop ∧ stop ≤ buffer.length ∧
            Bytes.slice? buffer (stop - delimiter.length) stop = some delimiter := by
  refine ⟨⟨delimiter, 0, hdelimiter⟩, dif_neg hdelimiter, ?_, ?_⟩
  · intro buffers hgrow k buffer hbuffer
    have hknows : ∀ first ∈ buffers.head?, Knows ⟨delimiter, 0, hdelimiter⟩ [] first :=
      fun first _ => ⟨missed_of_scanned_eq_zero rfl first, .nil delimiter⟩
    obtain ⟨next, hscan, hlongest⟩ := Knows.scanAll hknows hgrow hbuffer
    exact ⟨_, next, hscan, fun _ => endOfFirst?_eq_some_iff hdelimiter,
      endOfFirst?_eq_none_iff hdelimiter, hlongest⟩
  · intro buffers
    refine ⟨scanAllWindows?_eq _ buffers, ?_⟩
    intro k buffer stop next hbuffer hfound
    obtain ⟨before, hbefore, hscan⟩ := exists_scan_of_scanAll ⟨delimiter, 0, hdelimiter⟩ hbuffer
    obtain rfl : before.delimiter = delimiter := hbefore
    rw [hfound, Option.some.injEq] at hscan
    obtain ⟨place, hoccurs, rfl⟩ := occurs_of_scan (congrArg Prod.fst hscan.symm)
    refine ⟨Nat.le_add_left _ _, hoccurs.end_le hdelimiter, ?_⟩
    rw [Nat.add_sub_cancel]
    exact hoccurs.slice? hdelimiter

/-- A delimiter that overlaps itself and comes in pieces, and a buffer that shrinks. -/
theorem scanAll_decided_overlapping :
    ∃ scanner next, ofDelimiter? [1, 1, 2] = some scanner ∧
      (scanner.scanAll [[1, 1], [1, 1, 1], [1, 1, 1, 2]])[2]? = some (some 4, next) ∧
      LongestMiss [1, 1, 2] [[1, 1], [1, 1, 1], [1, 1, 1, 2]] next.scanned ∧
      scanner.scanAllWindows? [[1, 1, 1], [2]] = some (scanner.scanAll [[1, 1, 1], [2]]) := by
  obtain ⟨scanner, hnew, hgrow, hany⟩ := scanAll_decided (by decide : ([1, 1, 2] : Bytes) ≠ [])
  obtain ⟨found, next, hscan, hfound, -, hlongest⟩ :=
    hgrow [[1, 1], [1, 1, 1], [1, 1, 1, 2]] (by decide) 2 [1, 1, 1, 2] rfl
  have hfirst : FirstOccursAt [1, 1, 2] [1, 1, 1, 2] 1 := by
    unfold FirstOccursAt OccursAt
    decide
  obtain rfl := (hfound 4).mpr ⟨1, hfirst, rfl⟩
  exact ⟨scanner, next, hnew, hscan, hlongest, (hany _).1⟩

end Scanner

end CheckHarness
