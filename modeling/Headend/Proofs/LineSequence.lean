import Headend.Config.Source
import Headend.Proofs.Frames

/-!
# Lines one after the other

Carrying out lines goes on from what the lines before left, up to the first that fails; that one
leaves nothing behind. A line feed cuts octets into two parts whose lines are those of the whole, but
for their numbers and for a line without any text, and neither plays a role. So reading the whole is
reading the one part and then, unless it failed, the other.

Facts: `parseLines_append` (lines one after the other), `parseLines_of_texts` (only the texts
count), `parseLines_error_iff` (which line failed), `parse_append` (octets cut at a line feed).
-/

namespace Headend.Config

open Headend.Text (Octets)

/-! ### Lines one after the other -/

namespace Parsed

/-- Reading goes on with something else, unless it failed. -/
def andThen (p : Parsed) (next : Draft → Parsed) : Parsed :=
  match p.result with
  | .error _ => p
  | .ok _ => ⟨(next p.draft).result, (next p.draft).draft, p.records ++ (next p.draft).records⟩

/-- Whether the same came of reading, whatever the records are. -/
structure Agrees (p q : Parsed) : Prop where
  result : p.result = q.result
  draft : p.draft = q.draft

variable {p q r : Parsed} {next next' : Draft → Parsed}

theorem Agrees.trans (h : p.Agrees q) (h' : q.Agrees r) : p.Agrees r :=
  ⟨h.result.trans h'.result, h.draft.trans h'.draft⟩

theorem andThen_of_error {e : ConfigError} (h : p.result = .error e) : p.andThen next = p := by
  rw [andThen, h]

theorem andThen_of_ok (h : p.result = .ok ()) : p.andThen next =
    ⟨(next p.draft).result, (next p.draft).draft, p.records ++ (next p.draft).records⟩ := by
  rw [andThen, h]

theorem andThen_agrees (h : p.Agrees q) (hnext : ∀ d, (next d).Agrees (next' d)) :
    (p.andThen next).Agrees (q.andThen next') := by
  unfold andThen
  rw [h.result, h.draft]
  cases q.result with
  | error e => exact h
  | ok _ => exact ⟨(hnext q.draft).result, (hnext q.draft).draft⟩

end Parsed

variable {chain : List Section} {d : Draft} {e : ConfigError} {l : SourceLine}
  {ls ls' before after : List SourceLine}

theorem parseLines_append (chain : List Section) (d : Draft) (ls ls' : List SourceLine) :
    parseLines chain d (ls ++ ls') =
      (parseLines chain d ls).andThen fun d' => parseLines chain d' ls' := by
  induction ls generalizing d with
  | nil => rfl
  | cons l ls ih =>
    rw [List.cons_append, parseLines, parseLines]
    cases (dispatch chain d l.text).outcome with
    | error e => rfl
    | ok outcome =>
      dsimp only
      rw [ih]
      cases h : (parseLines chain (dispatch chain d l.text).draft ls).result with
      | error e => rw [Parsed.andThen_of_error h, Parsed.andThen_of_error rfl, h]
      | ok _ =>
        rw [Parsed.andThen_of_ok h, Parsed.andThen_of_ok rfl]
        simp only [List.append_assoc]

/-- The number of a line, and whether it was cut, play no role. -/
theorem parseLines_of_texts (chain : List Section) (d : Draft)
    (h : ls'.map (·.text) = ls.map (·.text)) :
    (parseLines chain d ls').Agrees (parseLines chain d ls) := by
  induction ls generalizing ls' d with
  | nil =>
    rw [List.map_eq_nil_iff.1 h]
    exact ⟨rfl, rfl⟩
  | cons l ls ih =>
    obtain ⟨l', ls', rfl, hl, hls⟩ := List.map_eq_cons_iff.1 h
    rw [parseLines, parseLines, hl]
    cases (dispatch chain d l.text).outcome with
    | error e => exact ⟨rfl, rfl⟩
    | ok outcome => exact ⟨(ih _ hls).result, (ih _ hls).draft⟩

/-- A line that fails ends the reading, with the draft that the lines before it left. -/
theorem parseLines_of_error (hbefore : (parseLines chain d before).result = .ok ())
    (hl : (dispatch chain (parseLines chain d before).draft l.text).outcome = .error e) :
    (parseLines chain d (before ++ l :: after)).result = .error e ∧
      (parseLines chain d (before ++ l :: after)).draft = (parseLines chain d before).draft := by
  rw [parseLines_append, Parsed.andThen_of_ok hbefore, parseLines, hl]
  exact ⟨rfl, dispatch_of_error hl⟩

/-- Reading fails exactly at the first line that does. -/
theorem parseLines_error_iff : (parseLines chain d ls).result = .error e ↔
    ∃ before l after, ls = before ++ l :: after ∧
      (parseLines chain d before).result = .ok () ∧
      (dispatch chain (parseLines chain d before).draft l.text).outcome = .error e := by
  refine ⟨fun h => ?_, ?_⟩
  · induction ls generalizing d with
    | nil => cases h
    | cons l ls ih =>
      rw [parseLines] at h
      cases hl : (dispatch chain d l.text).outcome with
      | error e' =>
        simp only [hl] at h
        cases h
        exact ⟨[], l, ls, rfl, rfl, hl⟩
      | ok outcome =>
        simp only [hl] at h
        obtain ⟨before, l', after, rfl, hbefore, hl'⟩ := ih h
        refine ⟨l :: before, l', after, rfl, ?_, ?_⟩
        all_goals simpa only [parseLines, hl]
  · rintro ⟨before, l, after, rfl, hbefore, hl⟩
    exact (parseLines_of_error hbefore hl).1

/-! ### Octets cut at a line feed -/

/-- A line feed at the end adds nothing, or a segment without octets. -/
theorem segments_lineFeed (bs : Octets) :
    segments (bs ++ [lineFeed]) = segments bs ∨
      segments (bs ++ [lineFeed]) = segments bs ++ [[]] := by
  induction bs with
  | nil => exact .inr rfl
  | cons b r ih =>
    rw [List.cons_append, segments, segments]
    split
    · exact ih.imp (congrArg _) (congrArg _)
    · rcases ih with h | h
      · rw [h]
        exact .inl rfl
      · rw [h]
        cases segments r with
        | nil => exact .inl rfl
        | cons s rest => exact .inr rfl

theorem texts_linesFrom (n m : Nat) (ss : List Octets) :
    (linesFrom n ss).map (·.text) = (linesFrom m ss).map (·.text) := by
  induction ss generalizing n m with
  | nil => rfl
  | cons s rest ih => exact congrArg (List.cons _) (ih (n + 1) (m + 1))

theorem linesFrom_append (n : Nat) (ss ss' : List Octets) :
    linesFrom n (ss ++ ss') = linesFrom n ss ++ linesFrom (n + ss.length) ss' := by
  induction ss generalizing n with
  | nil => rfl
  | cons s rest ih =>
    rw [List.cons_append, linesFrom, ih, linesFrom, List.cons_append, List.length_cons,
      Nat.add_right_comm, Nat.add_assoc]

theorem numbers_linesFrom (n : Nat) (ss : List Octets) :
    (linesFrom n ss).map (·.number) = List.range' n (linesFrom n ss).length := by
  induction ss generalizing n with
  | nil => rfl
  | cons s rest ih => exact congrArg (List.cons n) (ih (n + 1))

/-- A line without any text leaves the draft as it was. -/
theorem parseLines_empty (chain : List Section) (d : Draft) (n : Nat) :
    parseLines chain d (linesFrom n [[]]) = ⟨.ok (), d, []⟩ :=
  rfl

theorem parse_lineFeed (chain : List Section) (d : Draft) (bs : Octets) :
    (parse chain d (bs ++ [lineFeed])).Agrees (parse chain d bs) := by
  unfold parse lines
  rcases segments_lineFeed bs with h | h
  · rw [h]
    exact ⟨rfl, rfl⟩
  · rw [h, linesFrom_append, parseLines_append]
    cases h' : (parseLines chain d (linesFrom 1 (segments bs))).result with
    | error e =>
      rw [Parsed.andThen_of_error h']
      exact ⟨rfl, rfl⟩
    | ok _ =>
      rw [Parsed.andThen_of_ok h', parseLines_empty]
      exact ⟨h'.symm, rfl⟩

/-- Octets cut at a line feed: the one part is read, and then the other. -/
theorem parse_append (chain : List Section) (d : Draft) (a b : Octets) :
    (parse chain d (a ++ lineFeed :: b)).Agrees
      ((parse chain d a).andThen fun d' => parse chain d' b) := by
  have hcut : parse chain d (a ++ lineFeed :: b) =
      (parse chain d (a ++ [lineFeed])).andThen fun d' =>
        parseLines chain d' (linesFrom (1 + (segments (a ++ [lineFeed])).length) (segments b)) := by
    unfold parse lines
    rw [segments_append, linesFrom_append, parseLines_append]
  rw [hcut]
  exact Parsed.andThen_agrees (parse_lineFeed chain d a) fun d' =>
    parseLines_of_texts chain d' (texts_linesFrom _ _ _)

end Headend.Config
