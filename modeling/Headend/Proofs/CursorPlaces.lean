import Headend.Config.Token
import Headend.Proofs.CharacterBoundaries
import Mathlib.Data.List.Forall2
import Mathlib.Data.List.ReduceOption
import Mathlib.Data.List.TakeWhile

/-!
# Cursors as places in a line

A cursor can also be told by a place in the octets of its line: what it has read is what stands
before the place. A call then cuts the line at places that it adds up from sizes, and each of these
cuts fails unless it is made between characters. None of them ever fails, whatever the calls and
their order, and the parts that are cut out are the ones that the cursor answers, one behind the
other.

Facts: `slice?_append` (a cut between characters), `pieceAt?_eq` (what stands between delimiters
from a place on), `callAt?_stands` (one call), `answersAt?_stands` (any number of calls).
-/

namespace Headend.Text

/-- Trimming takes blanks off the two ends. -/
theorem exists_trim_append (cs : List Char) : ∃ blanks, trim cs ++ blanks = cs.dropWhile isBlank := by
  refine ⟨((cs.dropWhile isBlank).reverse.takeWhile isBlank).reverse, ?_⟩
  rw [trim, trimEnd, ← List.reverse_append, List.takeWhile_append_dropWhile, List.reverse_reverse]

end Headend.Text

namespace Headend.Config.Cursor

open Text (size size_append)

/-! ### Calls -/

/-- A call on a cursor. -/
inductive Call where
  | token | whole
deriving DecidableEq

/-- Whether a character ends the piece that a call reads. -/
def Call.isEnd : Call → Char → Bool
  | token => isDelimiter
  | whole => isEquals

/-- What a call answers, and the cursor after it. -/
def call (c : Cursor) : Call → Option String × Cursor
  | .token => c.next
  | .whole => c.wholeValue

/-- What calls answer one after the other. -/
def answers (c : Cursor) : List Call → List (Option String)
  | [] => []
  | k :: ks => (c.call k).1 :: (c.call k).2.answers ks

/-! ### Places -/

/-- A part of a line, by the octets at which it starts and stops. -/
structure Span where
  start : Nat
  stop : Nat
deriving DecidableEq

/-- The text between two places in its octets, unless one of them stands outside of the text or
within a character, or they are in the wrong order. -/
def slice? (cs : List Char) (start stop : Nat) : Option (List Char) :=
  let octets := Text.octets (String.ofList cs)
  if start ≤ stop ∧ Text.IsBoundary octets start ∧ Text.IsBoundary octets stop then
    Text.cut? cs start stop
  else none

/-- The text of a part of a line. -/
def Span.text? (line : List Char) (s : Span) : Option (List Char) := slice? line s.start s.stop

/-- The part of a part that is left without the blanks at its ends. -/
def Span.trim (text : List Char) (s : Span) : Span where
  start := s.start + size (text.takeWhile Text.isBlank)
  stop := s.start + size (text.takeWhile Text.isBlank) + size (Text.trim text)

/-- The piece between delimiters from a place on, and the place behind the delimiter that ends
it. -/
def pieceAt? (isEnd : Char → Bool) (line : List Char) (place : Nat) :
    Option (Option Span × Nat) := do
  let left ← slice? line place (size line)
  let skipped := size left - size (left.dropWhile isEnd)
  let left ← slice? left skipped (size left)
  if left = [] then return (none, size line)
  let length := size (left.takeWhile fun c => !isEnd c)
  let _piece ← slice? left 0 length
  let ending ← slice? left length (size left)
  let consumed := (ending.head?.map Char.utf8Size).getD 0
  return (some ⟨place + skipped, place + skipped + length⟩,
    place + (skipped + length + consumed))

/-- A call at a place of a line: the part that it answers with, and the place after it. -/
def callAt? (line : List Char) (place : Nat) : Call → Option (Option Span × Nat)
  | .token => pieceAt? isDelimiter line place
  | .whole => do
    let (piece, behind) ← pieceAt? isEquals line place
    match piece with
    | none => return (none, behind)
    | some s =>
      let s := s.trim (← s.text? line)
      return (if s.start = s.stop then none else some s, behind)

/-- Calls from a place of a line on, one after the other. -/
def answersAt? (line : List Char) (place : Nat) : List Call → Option (List (Option Span))
  | [] => some []
  | k :: ks => do
    let (answer, behind) ← callAt? line place k
    let answers ← answersAt? line behind ks
    return answer :: answers

/-! ### Cuts -/

variable {a b c line : List Char}

theorem slice?_append (a b c : List Char) :
    slice? (a ++ b ++ c) (size a) (size a + size b) = some b := by
  have hstart : Text.IsBoundary (Text.octets (String.ofList (a ++ b ++ c))) (size a) :=
    Text.isBoundary_iff.2 ⟨a, by simp, rfl⟩
  have hstop : Text.IsBoundary (Text.octets (String.ofList (a ++ b ++ c))) (size a + size b) :=
    Text.isBoundary_iff.2 ⟨a ++ b, by simp, size_append a b⟩
  unfold slice?
  dsimp only
  rw [if_pos ⟨Nat.le_add_right .., hstart, hstop⟩, Text.cut?_append]

theorem slice?_suffix (a b : List Char) : slice? (a ++ b) (size a) (size (a ++ b)) = some b := by
  have h := slice?_append a b []
  rwa [List.append_nil, ← size_append] at h

theorem slice?_prefix (a b : List Char) : slice? (a ++ b) 0 (size a) = some a := by
  have h := slice?_append [] a b
  rwa [List.nil_append, Text.size_nil, Nat.zero_add] at h

/-! ### Pieces -/

/-- What is read of a text: delimiters that are skipped, a piece, the delimiter that ends it unless
the text ends, and what is left. -/
structure Cut (isEnd : Char → Bool) (text skip piece ending left : List Char) : Prop where
  eq : text = skip ++ (piece ++ (ending ++ left))
  skipped : ∀ c ∈ skip, isEnd c = true
  ne_nil : piece ≠ []
  clean : ∀ c ∈ piece, isEnd c = false
  ended : ending = [] ∧ left = [] ∨ ∃ e, ending = [e] ∧ isEnd e = true

variable {isEnd : Char → Bool} {text skip piece ending left before : List Char}

theorem exists_cut (h : splitOff isEnd text = some (piece, left)) :
    ∃ skip ending, Cut isEnd text skip piece ending left := by
  have hne := splitOff_ne_nil h
  have hclean := splitOff_clean h
  obtain ⟨-, rfl, rfl⟩ := splitOff_eq_some_iff.1 h
  refine ⟨text.takeWhile isEnd, ((text.dropWhile isEnd).dropWhile fun d => !isEnd d).take 1, ?_,
    fun c hc => List.mem_takeWhile_imp hc, hne, hclean, ?_⟩
  · rw [← List.drop_one, List.take_append_drop, List.takeWhile_append_dropWhile,
      List.takeWhile_append_dropWhile]
  · cases hd : (text.dropWhile isEnd).dropWhile fun d => !isEnd d with
    | nil => exact .inl ⟨rfl, rfl⟩
    | cons e r =>
      have he := dropWhile_isEnd_head hd
      exact .inr ⟨e, rfl, by simpa using he⟩

theorem splitOff_eq_none_iff : splitOff isEnd text = none ↔ ∀ c ∈ text, isEnd c = true := by
  rw [← List.dropWhile_eq_nil_iff]
  unfold splitOff
  split <;> simp [*]

namespace Cut

variable (h : Cut isEnd text skip piece ending left)
include h

theorem line_eq (before : List Char) :
    before ++ text = before ++ skip ++ piece ++ (ending ++ left) := by
  rw [h.eq]
  simp

theorem dropWhile_eq : text.dropWhile isEnd = piece ++ (ending ++ left) := by
  obtain ⟨c, r, hcr⟩ := List.exists_cons_of_ne_nil h.ne_nil
  have hc : isEnd c = false := h.clean c (hcr ▸ List.mem_cons_self)
  rw [h.eq, List.dropWhile_append_of_pos h.skipped, hcr, List.cons_append,
    List.dropWhile_cons_of_neg (by simp [hc])]

theorem takeWhile_eq : (piece ++ (ending ++ left)).takeWhile (fun c => !isEnd c) = piece := by
  have hpiece : ∀ c ∈ piece, (!isEnd c) = true := fun c hc => by rw [h.clean c hc]; rfl
  rw [List.takeWhile_append_of_pos hpiece]
  obtain ⟨rfl, rfl⟩ | ⟨e, rfl, he⟩ := h.ended
  · simp
  · rw [List.singleton_append, List.takeWhile_cons_of_neg (by simp [he]), List.append_nil]

theorem consumed_eq : ((ending ++ left).head?.map Char.utf8Size).getD 0 = size ending := by
  obtain ⟨rfl, rfl⟩ | ⟨e, rfl, -⟩ := h.ended
  · rfl
  · simp

/-- The piece and the place behind it, added up from sizes. -/
theorem pieceAt?_eq (before : List Char) :
    pieceAt? isEnd (before ++ text) (size before) =
      some (some ⟨size (before ++ skip), size (before ++ skip ++ piece)⟩,
        size (before ++ skip ++ piece ++ ending)) := by
  have hskipped : size text - size (piece ++ (ending ++ left)) = size skip := by
    rw [h.eq, size_append]
    omega
  have hleft : slice? text (size skip) (size text) = some (piece ++ (ending ++ left)) := by
    rw [h.eq]
    exact slice?_suffix ..
  unfold pieceAt?
  rw [slice?_suffix]
  simp only [Option.bind_eq_bind, Option.bind_some, h.dropWhile_eq, hskipped, hleft,
    List.append_eq_nil_iff, h.ne_nil, false_and, if_false, h.takeWhile_eq, slice?_prefix,
    slice?_suffix, h.consumed_eq]
  simp only [size_append, Nat.add_assoc]
  rfl

end Cut

/-- Where only delimiters are left, the place behind them is the end of the line. -/
theorem pieceAt?_of_none (h : splitOff isEnd text = none) (before : List Char) :
    pieceAt? isEnd (before ++ text) (size before) = some (none, size (before ++ text)) := by
  have hall := splitOff_eq_none_iff.1 h
  have hleft : slice? text (size text) (size text) = some [] := by
    have hslice := slice?_suffix text []
    rwa [List.append_nil] at hslice
  unfold pieceAt?
  rw [slice?_suffix]
  simp only [Option.bind_eq_bind, Option.bind_some, List.dropWhile_eq_nil_iff.2 hall,
    Text.size_nil, Nat.sub_zero, hleft, if_true]
  rfl

/-! ### What a call answers -/

/-- Whether a part of a line is what a call answered. -/
def Shows (line : List Char) : Option String → Option Span → Prop :=
  Option.Rel fun w s => s.text? line = some w.toList

/-- Whether a cursor stands at a place of a line. -/
def Stands (line : List Char) (place : Nat) (c : Cursor) : Prop :=
  ∃ before, before ++ c.rest = line ∧ size before = place

/-- What a call from a place on has done: it answered with a part behind that place, if with any,
and the cursor stands behind this part. -/
structure Advances (line : List Char) (place : Nat) (answer : Option String × Cursor)
    (part : Option Span) (behind : Nat) : Prop where
  stands : Stands line behind answer.2
  shows : Shows line answer.1 part
  le : place ≤ behind
  within : ∀ s, part = some s → place ≤ s.start ∧ s.start < s.stop ∧ s.stop ≤ behind

theorem size_pos (h : piece ≠ []) : 0 < size piece := by
  obtain ⟨c, r, rfl⟩ := List.exists_cons_of_ne_nil h
  have hc := c.utf8Size_pos
  rw [Text.size_cons]
  omega

/-- A part is trimmed to nothing exactly if its text is. -/
theorem Span.trim_start_eq_stop_iff (s : Span) :
    (s.trim piece).start = (s.trim piece).stop ↔ Text.trim piece = [] := by
  rw [Span.trim]
  dsimp only
  constructor
  · intro h
    by_contra hne
    have hpos := size_pos hne
    omega
  · intro h
    rw [h]
    rfl

/-- The end of the line is a place where nothing is left. -/
theorem advances_end {line : List Char} {place : Nat} (h : place ≤ size line) :
    Advances line place (none, ⟨[]⟩) none (size line) where
  stands := ⟨line, List.append_nil line, rfl⟩
  shows := .none
  le := h
  within _ hs := by cases hs

namespace Cut

variable (h : Cut isEnd text skip piece ending left)
include h

theorem stands (before : List Char) :
    Stands (before ++ text) (size (before ++ skip ++ piece ++ ending)) ⟨left⟩ :=
  ⟨before ++ skip ++ piece ++ ending, by rw [h.line_eq]; simp, rfl⟩

/-- A part of the piece, which stands behind some of it. -/
theorem advances (before : List Char) {front part back : List Char}
    (hpart : front ++ part ++ back = piece) (hne : part ≠ []) :
    Advances (before ++ text) (size before) (some (String.ofList part), ⟨left⟩)
      (some ⟨size (before ++ skip ++ front), size (before ++ skip ++ front) + size part⟩)
      (size (before ++ skip ++ piece ++ ending)) where
  stands := h.stands before
  shows := by
    have hline : before ++ text =
        before ++ skip ++ front ++ part ++ (back ++ (ending ++ left)) := by
      rw [h.line_eq, ← hpart]
      simp
    refine .some ?_
    rw [Span.text?, hline, slice?_append, String.toList_ofList]
  le := by
    simp only [size_append]
    omega
  within s hs := by
    have hpos := size_pos hne
    cases hs
    simp only [size_append, ← hpart]
    omega

end Cut

theorem stands_ofLine (line : String) : Stands line.toList 0 (ofLine line) := ⟨[], rfl, rfl⟩

theorem next_advances (before : List Char) :
    ∃ part behind, pieceAt? isDelimiter (before ++ text) (size before) = some (part, behind) ∧
      Advances (before ++ text) (size before) (next ⟨text⟩) part behind := by
  unfold next
  cases hs : splitOff isDelimiter text with
  | none =>
    refine ⟨_, _, pieceAt?_of_none hs before, advances_end ?_⟩
    rw [size_append]
    omega
  | some found =>
    obtain ⟨piece, left⟩ := found
    obtain ⟨skip, ending, hcut⟩ := exists_cut hs
    have hwhole : [] ++ piece ++ [] = piece := by simp
    have hadvances := hcut.advances before hwhole hcut.ne_nil
    rw [List.append_nil, ← size_append] at hadvances
    exact ⟨_, _, hcut.pieceAt?_eq before, hadvances⟩

theorem wholeValue_advances (before : List Char) :
    ∃ part behind, callAt? (before ++ text) (size before) .whole = some (part, behind) ∧
      Advances (before ++ text) (size before) (wholeValue ⟨text⟩) part behind := by
  unfold wholeValue callAt?
  cases hs : splitOff isEquals text with
  | none =>
    rw [pieceAt?_of_none hs before]
    refine ⟨_, _, rfl, advances_end ?_⟩
    rw [size_append]
    omega
  | some found =>
    obtain ⟨piece, left⟩ := found
    obtain ⟨skip, ending, hcut⟩ := exists_cut hs
    obtain ⟨blanks, hblanks⟩ := Text.exists_trim_append piece
    have hpiece : piece.takeWhile Text.isBlank ++ Text.trim piece ++ blanks = piece := by
      rw [List.append_assoc, hblanks, List.takeWhile_append_dropWhile]
    have htext : Span.text? (before ++ text)
        ⟨size (before ++ skip), size (before ++ skip ++ piece)⟩ = some piece := by
      rw [Span.text?, hcut.line_eq, size_append (before ++ skip), slice?_append]
    rw [hcut.pieceAt?_eq before]
    simp only [Option.bind_eq_bind, Option.bind_some, htext, Span.trim_start_eq_stop_iff]
    by_cases hvalue : Text.trim piece = []
    · simp only [if_pos hvalue]
      refine ⟨_, _, rfl, hcut.stands before, .none, ?_, fun s hs => by cases hs⟩
      simp only [size_append]
      omega
    · have hadvances := hcut.advances before hpiece hvalue
      rw [size_append (before ++ skip)] at hadvances
      simp only [if_neg hvalue]
      exact ⟨_, _, rfl, hadvances⟩

/-- One call: no cut fails, and the part is the answer. -/
theorem callAt?_stands {place : Nat} {c : Cursor} (h : Stands line place c) (k : Call) :
    ∃ part behind, callAt? line place k = some (part, behind) ∧
      Advances line place (c.call k) part behind := by
  obtain ⟨before, rfl, rfl⟩ := h
  cases k with
  | token => exact next_advances before
  | whole => exact wholeValue_advances before

/-- What calls from a place on have done: they answered with parts behind that place and within the
line, one behind the other. -/
structure Reaches (line : List Char) (place : Nat) (answers : List (Option String))
    (parts : List (Option Span)) : Prop where
  shows : List.Forall₂ (Shows line) answers parts
  behind : ∀ s, some s ∈ parts → place ≤ s.start
  within : ∀ s, some s ∈ parts → s.start < s.stop ∧ s.stop ≤ size line
  ordered : parts.reduceOption.Pairwise fun s t => s.stop ≤ t.start

theorem Stands.le {place : Nat} {c : Cursor} (h : Stands line place c) : place ≤ size line := by
  obtain ⟨before, rfl, rfl⟩ := h
  rw [size_append]
  omega

/-- Any number of calls, whatever their kinds. -/
theorem answersAt?_stands {place : Nat} {c : Cursor} (h : Stands line place c) (ks : List Call) :
    ∃ parts, answersAt? line place ks = some parts ∧ Reaches line place (c.answers ks) parts := by
  induction ks generalizing place c with
  | nil =>
    have hnone : ∀ s : Span, some s ∉ ([] : List (Option Span)) := fun s => List.not_mem_nil
    exact ⟨[], rfl, .nil, fun s hs => absurd hs (hnone s), fun s hs => absurd hs (hnone s), .nil⟩
  | cons k ks ih =>
    obtain ⟨part, behind, hcall, hadvances⟩ := callAt?_stands h k
    obtain ⟨parts, hcalls, hreaches⟩ := ih hadvances.stands
    have hend := hadvances.stands.le
    refine ⟨part :: parts, ?_, .cons hadvances.shows hreaches.shows, ?_, ?_, ?_⟩
    · simp only [answersAt?, hcall, Option.bind_eq_bind, Option.bind_some, hcalls]
      rfl
    · intro s hs
      rcases List.mem_cons.1 hs with hfirst | hlater
      · exact (hadvances.within s hfirst.symm).1
      · exact Nat.le_trans hadvances.le (hreaches.behind s hlater)
    · intro s hs
      rcases List.mem_cons.1 hs with hfirst | hlater
      · obtain ⟨-, hlt, hle⟩ := hadvances.within s hfirst.symm
        exact ⟨hlt, Nat.le_trans hle hend⟩
      · exact hreaches.within s hlater
    · cases part with
      | none => exact hreaches.ordered
      | some s =>
        rw [List.reduceOption_cons_of_some, List.pairwise_cons]
        refine ⟨fun t ht => ?_, hreaches.ordered⟩
        have hfirst := (hadvances.within s rfl).2.2
        exact Nat.le_trans hfirst (hreaches.behind t (List.reduceOption_mem_iff.1 ht))

end Headend.Config.Cursor
