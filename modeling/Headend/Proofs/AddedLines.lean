import Headend.Proofs.Encoding
import Headend.Proofs.LineEffects
import Headend.Proofs.LineSequence

/-!
# Lines added to a configuration

A text that stands on a line as it is, without a line feed and within the size of a line, is read
back from its octets. So lines that are added behind a configuration are carried out after it, each
as the text that was added, and lines that are accepted on every draft work on it one after the
other.

Facts: `lines_octets` (the line of a text), `parse_withLines`, `parseLines_of_accepts`.
-/

namespace Headend.Config

open Headend.Text (Octets octets decode_octets octets_eq_flatMap)

/-- A text that stands on a line as it is. -/
structure IsLine (l : String) : Prop where
  ne_nil : l.toList ≠ []
  no_feed : '\n' ∉ l.toList
  ends : stripEnds l.toList = l.toList
  size_le : Text.size l.toList ≤ maxLineSize

/-- A configuration with lines added behind it. -/
def withLines (bs : Octets) (ls : List String) : Octets :=
  bs ++ lineFeed :: ls.flatMap fun l => octets l ++ [lineFeed]

/-- A line with a given text. -/
def SourceLine.ofText (l : String) : SourceLine := ⟨1, l, false⟩

/-! ### The line of a text -/

theorem lineFeed_notMem_encode {c : Char} (hc : c ≠ '\n') :
    lineFeed ∉ String.utf8EncodeChar c := by
  have hval : c.val.toNat ≠ 10 := fun h => hc (Char.toNat_inj.1 h)
  have hbyte : ∀ n, n % 256 ≠ 10 → lineFeed ≠ UInt8.ofNat n := by
    rintro n hn h
    have hnat := congrArg UInt8.toNat h
    rw [UInt8.toNat_ofNat'] at hnat
    exact hn hnat.symm
  unfold String.utf8EncodeChar
  generalize c.val.toNat = v at hval
  dsimp only
  intro hmem
  split_ifs at hmem <;> simp only [List.mem_cons, List.not_mem_nil, or_false] at hmem
  · exact hbyte _ (by omega) hmem
  · rcases hmem with h | h <;> exact hbyte _ (by omega) h
  · rcases hmem with h | h | h <;> exact hbyte _ (by omega) h
  · rcases hmem with h | h | h | h <;> exact hbyte _ (by omega) h

theorem lineFeed_notMem_octets {l : String} (h : '\n' ∉ l.toList) : lineFeed ∉ octets l := by
  rw [octets_eq_flatMap, List.mem_flatMap]
  rintro ⟨c, hc, hmem⟩
  exact lineFeed_notMem_encode (fun he => h (he ▸ hc)) hmem

theorem segments_of_no_feed {bs : Octets} (hne : bs ≠ []) (h : lineFeed ∉ bs) :
    segments bs = [bs] := by
  induction bs with
  | nil => exact absurd rfl hne
  | cons b r ih =>
    obtain ⟨hb, hr⟩ := not_or.1 fun hmem => h (List.mem_cons.2 hmem)
    rw [segments, if_neg (Ne.symm hb)]
    rcases eq_or_ne r [] with rfl | hr'
    · rfl
    · rw [ih hr' hr]

theorem octets_ne_nil {l : String} (h : l.toList ≠ []) : octets l ≠ [] := by
  intro hnil
  have hdecode := decode_octets l
  rw [hnil] at hdecode
  exact h hdecode.symm

/-- The octets of a text are the one line with that text. -/
theorem lines_octets {l : String} (h : IsLine l) : lines (octets l) = [.ofText l] := by
  have hsegment : SourceLine.ofSegment 1 (octets l) = .ofText l := by
    unfold SourceLine.ofSegment SourceLine.ofText
    dsimp only
    rw [decode_octets, h.ends, Text.takeSize_of_size_le h.size_le, String.ofList_toList,
      decide_eq_false (Nat.not_lt.2 h.size_le)]
  rw [lines, segments_of_no_feed (octets_ne_nil h.ne_nil) (lineFeed_notMem_octets h.no_feed)]
  exact congrArg ([·]) hsegment

/-! ### Lines behind a configuration -/

variable {chain : List Section} {ls : List String}

theorem parse_lineTexts (hls : ∀ l ∈ ls, IsLine l) (d : Draft) :
    (parse chain d (ls.flatMap fun l => octets l ++ [lineFeed])).Agrees
      (parseLines chain d (ls.map .ofText)) := by
  induction ls generalizing d with
  | nil => exact ⟨rfl, rfl⟩
  | cons l ls ih =>
    obtain ⟨hl, hls⟩ := List.forall_mem_cons.1 hls
    have hfirst : parse chain d (octets l) = parseLines chain d [.ofText l] := by
      rw [parse, lines_octets hl]
    have hboth : parseLines chain d ((l :: ls).map .ofText) =
        (parse chain d (octets l)).andThen fun d' => parseLines chain d' (ls.map .ofText) := by
      rw [hfirst, ← parseLines_append]
      rfl
    rw [List.flatMap_cons, List.append_assoc, List.singleton_append, hboth]
    exact (parse_append chain d _ _).trans (Parsed.andThen_agrees ⟨rfl, rfl⟩ (ih hls))

/-- Lines behind a configuration are carried out after it. -/
theorem parse_withLines (hls : ∀ l ∈ ls, IsLine l) (d : Draft) (bs : Octets) :
    (parse chain d (withLines bs ls)).Agrees
      ((parse chain d bs).andThen fun d' => parseLines chain d' (ls.map .ofText)) :=
  (parse_append chain d bs _).trans (Parsed.andThen_agrees ⟨rfl, rfl⟩ (parse_lineTexts hls))

/-- Lines that every draft accepts work on a draft one after the other. -/
theorem parseLines_of_accepts {α : Type} {line : α → String} {step : Draft → α → Draft}
    {as : List α} (h : ∀ a ∈ as, ∀ d, Accepts chain (line a) d (step d a)) (d : Draft) :
    (parseLines chain d (as.map fun a => .ofText (line a))).result = .ok () ∧
      (parseLines chain d (as.map fun a => .ofText (line a))).draft = as.foldl step d := by
  induction as generalizing d with
  | nil => exact ⟨rfl, rfl⟩
  | cons a as ih =>
    obtain ⟨ha, has⟩ := List.forall_mem_cons.1 h
    obtain ⟨⟨outcome, houtcome⟩, hdraft⟩ := ha d
    rw [List.map_cons, parseLines, List.foldl_cons]
    simp only [SourceLine.ofText, houtcome, hdraft]
    exact ih has (step d a)

end Headend.Config
