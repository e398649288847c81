import Headend.Proofs.AddedLines
import Headend.Proofs.CharacterBoundaries
import Headend.Proofs.LossyReading
import Mathlib.Data.List.TakeWhile

/-!
# What a line is made of

Octets are read up to a line feed, or up to the end of them if something is left. What was read is
one line: as text, without the ends of line at its end, and cut at the boundary between characters
that is found downwards from the size of a line if it is longer. A line that was cut is warned of
with its number, which counts the lines read so far.

Facts: `exists_segmented` (reading ends), `ReadsAs.append_lineFeed` (the line feed that ends a
segment), `lineFrom_ofSegment` and `LineFrom.unique` (one line), `linesFrom_exact` and `lines_exact`
(all of them).
-/

namespace Headend.Text

open Config (lineFeed lineFeed_notMem_encode)

variable {p rest r : Octets} {cs : List Char}

/-! ### Line feeds -/

theorem encode_of_lineFeed_mem {c : Char} (h : lineFeed ∈ String.utf8EncodeChar c) :
    String.utf8EncodeChar c = [lineFeed] := by
  obtain rfl : c = '\n' := by
    by_contra hc
    exact lineFeed_notMem_encode hc h
  rfl

/-- No character has a line feed behind another octet. -/
theorem not_beginsCharacter_lineFeed (hp : p ≠ []) : ¬BeginsCharacter (p ++ [lineFeed]) := by
  rintro ⟨c, hc⟩
  have hmem : lineFeed ∈ String.utf8EncodeChar c :=
    hc.subset (List.mem_append_right p (List.mem_singleton_self lineFeed))
  have hle := hc.length_le
  have hpos := List.length_pos_iff.2 hp
  rw [encode_of_lineFeed_mem hmem, List.length_append] at hle
  simp only [List.length_singleton] at hle
  omega

theorem BrokenPart.append_lineFeed (h : BrokenPart p rest) :
    BrokenPart p (rest ++ [lineFeed]) where
  ne_nil := h.ne_nil
  unreadable c hc := by
    rw [← List.append_assoc, List.prefix_concat_iff] at hc
    rcases hc with heq | hc
    · have hne : p ++ rest ≠ [] := List.append_ne_nil_of_left_ne_nil h.ne_nil rest
      exact not_beginsCharacter_lineFeed hne ⟨c, heq ▸ List.prefix_refl _⟩
    · exact h.unreadable c hc
  begins_or_single := h.begins_or_single
  longest b hb := by
    match rest with
    | [] =>
      obtain rfl : lineFeed = b := Option.some.inj hb
      exact not_beginsCharacter_lineFeed h.ne_nil
    | x :: rest => exact h.longest b hb

/-- A line feed at the end is read as such, whatever stands before it. -/
theorem ReadsAs.append_lineFeed (h : ReadsAs r cs) : ReadsAs (r ++ [lineFeed]) (cs ++ ['\n']) := by
  induction h with
  | nothing => exact .character '\n' .nothing
  | @character c rest cs _ ih =>
    rw [List.append_assoc]
    exact .character c ih
  | broken hbroken _ ih =>
    rw [List.append_assoc]
    exact .broken hbroken.append_lineFeed ih

end Headend.Text

namespace Headend.Config

open Headend.Text (Octets octets ReadsAs LongestPrefix boundaryBelow)

/-! ### What is read -/

/-- The parts of octets that are read one after the other, each up to a line feed and with it. -/
inductive Segmented : Octets → List Octets → Prop where
  | done : Segmented [] []
  | tail {s : Octets} : s ≠ [] → lineFeed ∉ s → Segmented s [s]
  | ended {s rest : Octets} {ss : List Octets} :
    lineFeed ∉ s → Segmented rest ss → Segmented (s ++ lineFeed :: rest) ((s ++ [lineFeed]) :: ss)

/-- Whether a character belongs to the end of a line. -/
def IsEnd (c : Char) : Prop := c = '\r' ∨ c = '\n'

/-- A text without all the ends of line at its end. -/
structure Strips (cs stripped : List Char) : Prop where
  ends : ∃ e, cs = stripped ++ e ∧ ∀ c ∈ e, IsEnd c
  all : ∀ c, stripped.getLast? = some c → ¬IsEnd c

/-- What a line was made of, with its number, the text that was read, and that without its ends. -/
structure LineFrom (segment : Octets) (number : Nat) (read : List Char) (stripped : String)
    (l : SourceLine) : Prop where
  reads : ReadsAs segment read
  strips : Strips read stripped.toList
  cut : LongestPrefix 511 l.text.toList stripped.toList
  number_eq : l.number = number
  /-- Exactly a line that was cut is warned of. -/
  records_eq : l.records = if l.text = stripped then []
    else [.warn s!"Config line {number} too long, truncated"]
  /-- The line was cut where the search for a boundary ended, within the text. -/
  search : l.text ≠ stripped → ∃ stop, boundaryBelow (octets stripped) 511 = some stop ∧
    511 < (octets stripped).length ∧ octets l.text = (octets stripped).take stop

variable {segment s bs : Octets} {segs : List Octets} {cs : List Char}

/-- Reading ends, whatever the octets are. -/
theorem exists_segmented (bs : Octets) : ∃ segs, Segmented bs segs := by
  generalize hn : bs.length = n
  induction n using Nat.strongRecOn generalizing bs with
  | ind n ih =>
    by_cases h : lineFeed ∈ bs
    · obtain ⟨s, rest, rfl, hs⟩ := List.eq_append_cons_of_mem h
      have hshorter : rest.length < n := by
        rw [List.length_append, List.length_cons] at hn
        omega
      obtain ⟨ss, hss⟩ := ih _ hshorter rest rfl
      exact ⟨_, .ended hs hss⟩
    · rcases eq_or_ne bs [] with rfl | hne
      · exact ⟨[], .done⟩
      · exact ⟨[bs], .tail hne h⟩

theorem segments_ended (h : lineFeed ∉ s) : segments (s ++ [lineFeed]) = [s] := by
  induction s with
  | nil => rfl
  | cons b s ih =>
    obtain ⟨hb, hs⟩ := not_or.1 fun hmem => h (List.mem_cons.2 hmem)
    rw [List.cons_append, segments, if_neg (Ne.symm hb), ih hs]

/-! ### One line -/

theorem strips_stripEnds (cs : List Char) : Strips cs (stripEnds cs) := by
  have hend : ∀ c, (c == '\r' || c == '\n') = true ↔ IsEnd c := by
    intro c
    rw [Bool.or_eq_true, beq_iff_eq, beq_iff_eq, IsEnd]
  constructor
  · refine ⟨(cs.reverse.takeWhile fun c => c == '\r' || c == '\n').reverse, ?_, ?_⟩
    · rw [stripEnds, ← List.reverse_append, List.takeWhile_append_dropWhile, List.reverse_reverse]
    · intro c hc
      have hmem := List.mem_takeWhile_imp (List.mem_reverse.1 hc)
      exact (hend c).1 hmem
  · intro c hc hcend
    rw [stripEnds, List.getLast?_reverse] at hc
    have hnot := List.head?_dropWhile_not (fun c => c == '\r' || c == '\n') cs.reverse
    rw [hc] at hnot
    exact absurd ((hend c).2 hcend) (by simpa using hnot)

theorem stripEnds_append_feed (cs : List Char) : stripEnds (cs ++ ['\n']) = stripEnds cs := by
  rw [stripEnds, List.reverse_append]
  rfl

theorem takeSize_eq_self_iff {n : Nat} : Text.takeSize n cs = cs ↔ Text.size cs ≤ n :=
  ⟨fun h => h ▸ Text.size_takeSize n cs, Text.takeSize_of_size_le⟩

/-- The line of a segment, if the octets that were read differ from it only in an end of line. -/
theorem lineFrom_ofSegment (n : Nat) (hreads : ReadsAs segment cs)
    (hends : stripEnds cs = stripEnds (Text.decode s)) :
    LineFrom segment n cs (String.ofList (stripEnds cs)) (.ofSegment n s) := by
  have htext : (SourceLine.ofSegment n s).text.toList = Text.takeSize 511 (stripEnds cs) := by
    rw [hends]
    exact String.toList_ofList
  have hcut : LongestPrefix 511 (SourceLine.ofSegment n s).text.toList
      (String.ofList (stripEnds cs)).toList := by
    rw [htext, String.toList_ofList]
    exact .takeSize 511 (stripEnds cs)
  have hsame : (SourceLine.ofSegment n s).text = String.ofList (stripEnds cs) ↔
      Text.size (stripEnds cs) ≤ 511 := by
    rw [← String.toList_inj, htext, String.toList_ofList, takeSize_eq_self_iff]
  refine ⟨hreads, ?_, hcut, rfl, ?_, fun hne => ⟨_, hcut.boundaryBelow, ?_, ?_⟩⟩
  · rw [String.toList_ofList]
    exact strips_stripEnds cs
  · have hwarned : (SourceLine.ofSegment n s).isCut = decide (511 < Text.size (stripEnds cs)) := by
      rw [hends]
      rfl
    rw [SourceLine.records, hwarned]
    by_cases hsize : Text.size (stripEnds cs) ≤ 511
    · rw [if_pos (hsame.2 hsize), decide_eq_false (Nat.not_lt.2 hsize)]
      rfl
    · rw [if_neg fun h => hsize (hsame.1 h), decide_eq_true (Nat.not_le.1 hsize)]
      rfl
  · rw [Text.length_octets, String.toList_ofList]
    exact Nat.not_le.1 fun hsize => hne (hsame.2 hsize)
  · rw [← Text.length_octets]
    exact Text.octets_of_prefix hcut.initial

section

variable {number : Nat} {read read' : List Char} {stripped stripped' : String} {l l' : SourceLine}

theorem Strips.unique {a b : List Char} (h : Strips cs a) (h' : Strips cs b) : a = b := by
  have hshorter : ∀ {a b : List Char}, Strips cs a → Strips cs b → a <+: b → a = b := by
    rintro a b h h' ⟨t, rfl⟩
    obtain ⟨e, he, hends⟩ := h.ends
    obtain ⟨e', he', -⟩ := h'.ends
    have hsplit : e = t ++ e' := by
      rw [he, List.append_assoc] at he'
      exact List.append_cancel_left he'
    rcases List.eq_nil_or_concat' t with rfl | ⟨t, c, rfl⟩
    · exact (List.append_nil a).symm
    · have hlast : (a ++ (t ++ [c])).getLast? = some c := by
        rw [← List.append_assoc, List.getLast?_concat]
      exact absurd (hends c (by simp [hsplit])) (h'.all c hlast)
  obtain ⟨e, he, -⟩ := h.ends
  obtain ⟨e', he', -⟩ := h'.ends
  rcases List.prefix_or_prefix_of_prefix ⟨e, he.symm⟩ ⟨e', he'.symm⟩ with hp | hp
  · exact hshorter h h' hp
  · exact (hshorter h' h hp).symm

theorem isCut_iff (l : SourceLine) : l.isCut = true ↔ l.records ≠ [] := by
  unfold SourceLine.records
  split <;> simp [*]

/-- A segment and a number make one line. -/
theorem LineFrom.unique (h : LineFrom segment number read stripped l)
    (h' : LineFrom segment number read' stripped' l') : l = l' := by
  obtain rfl : read = read' :=
    (Text.readsAs_iff.1 h.reads).trans (Text.readsAs_iff.1 h'.reads).symm
  obtain rfl : stripped = stripped' := String.toList_inj.1 (h.strips.unique h'.strips)
  have htext : l.text = l'.text := String.toList_inj.1 (h.cut.unique h'.cut)
  have hcut : l.isCut = l'.isCut := by
    rw [Bool.eq_iff_iff, isCut_iff, isCut_iff, h.records_eq, h'.records_eq, htext]
  have hnumber : l.number = l'.number := h.number_eq.trans h'.number_eq.symm
  obtain ⟨number, text, isCut⟩ := l
  obtain ⟨number', text', isCut'⟩ := l'
  rw [SourceLine.mk.injEq]
  exact ⟨hnumber, htext, hcut⟩

end

/-! ### All lines -/

/-- Each segment gives one line, with the numbers in order. -/
theorem linesFrom_exact (h : Segmented bs segs) (n : Nat) :
    (linesFrom n (segments bs)).length = segs.length ∧
      ∀ i segment l, segs[i]? = some segment → (linesFrom n (segments bs))[i]? = some l →
        ∃ read stripped, LineFrom segment (n + i) read stripped l := by
  induction h generalizing n with
  | done => exact ⟨rfl, fun i segment l hsegment => by cases hsegment⟩
  | @tail s hne hs =>
    rw [segments_of_no_feed hne hs]
    refine ⟨rfl, fun i segment l hsegment hl => ?_⟩
    cases i with
    | zero =>
      obtain rfl := Option.some.inj hsegment
      obtain rfl := Option.some.inj hl
      exact ⟨_, _, lineFrom_ofSegment n (Text.readsAs_decode s) rfl⟩
    | succ i => cases hl
  | @ended s rest ss hs _ ih =>
    obtain ⟨hlength, hlines⟩ := ih (n + 1)
    rw [segments_append, segments_ended hs, List.singleton_append, linesFrom]
    refine ⟨congrArg (· + 1) hlength, fun i segment l hsegment hl => ?_⟩
    cases i with
    | zero =>
      obtain rfl := Option.some.inj hsegment
      obtain rfl := Option.some.inj hl
      exact ⟨_, _, lineFrom_ofSegment n (Text.readsAs_decode s).append_lineFeed
        (stripEnds_append_feed _)⟩
    | succ i =>
      rw [← Nat.add_assoc, Nat.add_right_comm]
      exact hlines i segment l hsegment hl

/-- The lines of octets are those of the segments that are read, in order and numbered from one. -/
theorem lines_exact (bs : Octets) :
    (∃ segs, Segmented bs segs) ∧ ∀ segs, Segmented bs segs →
      (lines bs).length = segs.length ∧
      ∀ i segment, segs[i]? = some segment → ∀ l, (lines bs)[i]? = some l ↔
        ∃ read stripped, LineFrom segment (i + 1) read stripped l := by
  refine ⟨exists_segmented bs, fun segs h => ?_⟩
  obtain ⟨hlength, hlines⟩ := linesFrom_exact h 1
  refine ⟨hlength, fun i segment hsegment l => ?_⟩
  have hmade : ∀ l, (lines bs)[i]? = some l → ∃ read stripped,
      LineFrom segment (i + 1) read stripped l := by
    intro l hl
    rw [Nat.add_comm]
    exact hlines i segment l hsegment hl
  refine ⟨hmade l, fun ⟨read, stripped, hl⟩ => ?_⟩
  have hlt : i < (lines bs).length := hlength.symm ▸ (List.getElem?_eq_some_iff.1 hsegment).1
  have hthere : (lines bs)[i]? = some (lines bs)[i] := List.getElem?_eq_getElem hlt
  obtain ⟨read', stripped', hl'⟩ := hmade _ hthere
  rw [hthere, hl'.unique hl]

example : lines [0x61, 0xff, 0x0d, 0x0a, 0x62] = [⟨1, "a\ufffd", false⟩, ⟨2, "b", false⟩] := by
  decide +kernel

end Headend.Config
