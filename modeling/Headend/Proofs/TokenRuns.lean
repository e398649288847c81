import Headend.Proofs.CursorPlaces
import Headend.Proofs.ExpressionGrammar
import Headend.Proofs.Tokenwise

/-!
# Tokens are runs

Whatever calls are made on a line, each answers with a text of its kind, and after a token was
missed nothing comes any more. Tokens alone, called for until one is missed, are exactly the runs of
characters other than delimiters that go on at neither end, in the order of the line.

Facts: `call_fits` and `answers_of_missed` (what calls answer), `Cut.isRun_iff` (the runs behind a
place are the next token and those behind it), `exists_runs` (all of them), `readsLine`.
-/

namespace Headend.Text

theorem head?_trim (cs : List Char) {c : Char} (h : (trim cs).head? = some c) :
    isBlank c = false := by
  obtain ⟨blanks, hblanks⟩ := exists_trim_append cs
  refine head?_dropWhile_isBlank cs (c := c) ?_
  rw [← hblanks, List.head?_append, h]
  rfl

end Headend.Text

namespace Headend.Config.Cursor

open Text (size size_append)

/-! ### What calls answer -/

/-- The texts that a call can answer with. -/
def Call.Fits : Call → List Char → Prop
  | token, w => w ≠ [] ∧ ∀ c ∈ w, c ≠ ' ' ∧ c ≠ '\t' ∧ c ≠ '='
  | whole, w => w ≠ [] ∧ '=' ∉ w ∧ (∀ c, w.head? = some c → Text.isBlank c = false) ∧
      ∀ c, w.getLast? = some c → Text.isBlank c = false

variable {c : Cursor} {w : String}

theorem next_fits (h : c.next.1 = some w) : Call.token.Fits w.toList := by
  unfold next at h
  split at h
  · rename_i piece rest hsplit
    cases h
    rw [String.toList_ofList]
    refine ⟨splitOff_ne_nil hsplit, fun d hd => ?_⟩
    have hclean := splitOff_clean hsplit d hd
    simpa [isDelimiter, and_assoc] using hclean
  · cases h

theorem wholeValue_fits (h : c.wholeValue.1 = some w) : Call.whole.Fits w.toList := by
  unfold wholeValue at h
  split at h
  · rename_i piece rest hsplit
    dsimp only at h
    split at h
    · cases h
    · rename_i hvalue
      cases h
      rw [String.toList_ofList]
      refine ⟨hvalue, fun hmem => ?_, fun d => Text.head?_trim piece, fun d =>
        Text.getLast?_trim piece⟩
      obtain ⟨blanks, hblanks⟩ := Text.exists_trim_append piece
      have hin : '=' ∈ piece.dropWhile Text.isBlank := hblanks ▸ List.mem_append_left blanks hmem
      have hin : '=' ∈ piece := (List.dropWhile_sublist _).mem hin
      exact absurd (splitOff_clean hsplit '=' hin) (by decide)
  · cases h

theorem call_fits {k : Call} (h : (c.call k).1 = some w) : k.Fits w.toList := by
  cases k with
  | token => exact next_fits h
  | whole => exact wholeValue_fits h

theorem answers_fit (c : Cursor) (ks : List Call) :
    List.Forall₂ (fun k answer => ∀ w, answer = some w → k.Fits w.toList) ks (c.answers ks) := by
  induction ks generalizing c with
  | nil => exact .nil
  | cons k ks ih => exact .cons (fun w hw => call_fits hw) (ih _)

/-- Where nothing is left there is nothing to answer with, and nothing left after it. -/
theorem call_nil (k : Call) : (⟨[]⟩ : Cursor).call k = (none, ⟨[]⟩) := by
  cases k <;> rfl

theorem answers_nil (ks : List Call) : ∀ answer ∈ (⟨[]⟩ : Cursor).answers ks, answer = none := by
  induction ks with
  | nil => exact List.forall_mem_nil _
  | cons k ks ih =>
    rw [answers, call_nil]
    exact List.forall_mem_cons.2 ⟨rfl, ih⟩

theorem next_snd_of_none (h : c.next.1 = none) : c.next.2 = ⟨[]⟩ := by
  unfold next at h ⊢
  split at h
  · cases h
  · rfl

/-- After a token was missed, nothing comes any more. -/
theorem answers_of_missed {ks : List Call} {i j : Nat} (hij : i < j) (hi : ks[i]? = some .token)
    (hnone : (c.answers ks)[i]? = some none) {answer : Option String}
    (hj : (c.answers ks)[j]? = some answer) : answer = none := by
  induction ks generalizing c i j with
  | nil => cases hi
  | cons k ks ih =>
    obtain ⟨j, rfl⟩ := Nat.exists_eq_add_one_of_ne_zero (Nat.ne_zero_of_lt hij)
    rw [answers, List.getElem?_cons_succ] at hj
    cases i with
    | zero =>
      obtain rfl : k = .token := Option.some.inj hi
      have hmissed : c.next.1 = none := Option.some.inj hnone
      rw [call, next_snd_of_none hmissed] at hj
      exact answers_nil ks answer (List.mem_of_getElem? hj)
    | succ i => exact ih (Nat.lt_of_succ_lt_succ hij) hi hnone hj

/-! ### Runs -/

/-- A run of characters other than delimiters that goes on at neither end. -/
inductive IsRun (line : List Char) : Span → Prop
  | intro {before run after : List Char} (split : line = before ++ run ++ after)
      (ne_nil : run ≠ []) (clean : ∀ c ∈ run, isDelimiter c = false)
      (left : ∀ c, before.getLast? = some c → isDelimiter c = true)
      (right : ∀ c, after.head? = some c → isDelimiter c = true) :
      IsRun line ⟨size before, size before + size run⟩

variable {line before text skip piece ending left : List Char} {s : Span}

theorem IsRun.bounds (h : IsRun line s) : s.start < s.stop ∧ s.stop ≤ size line := by
  obtain ⟨split, ne_nil, -, -, -⟩ := h
  have hpos := size_pos ne_nil
  rw [split]
  simp only [size_append]
  omega

/-- A beginning of a line that is not shorter than another one contains it. -/
theorem exists_append_of_size_le {a b u v : List Char} (h : a ++ u = b ++ v)
    (hle : size b ≤ size a) : ∃ x, a = b ++ x ∧ v = x ++ u := by
  rcases List.append_eq_append_iff.1 h with ⟨x, hb, hu⟩ | ⟨x, ha, hv⟩
  · have hx : x = [] := by
      by_contra hne
      have hpos := size_pos hne
      rw [hb, size_append] at hle
      omega
    subst hx
    exact ⟨[], by simpa using hb.symm, by simpa using hu.symm⟩
  · exact ⟨x, ha, hv⟩

/-- Among delimiters there is no run. -/
theorem not_isRun_of_delimiters (h : ∀ c ∈ text, isDelimiter c = true)
    (hle : size before ≤ s.start) : ¬IsRun (before ++ text) s := by
  rintro ⟨split, ne_nil, clean, -, -⟩
  rename_i b run after
  rw [List.append_assoc] at split
  obtain ⟨x, -, htext⟩ := exists_append_of_size_le split.symm hle
  obtain ⟨c, r, rfl⟩ := List.exists_cons_of_ne_nil ne_nil
  have hc : isDelimiter c = true := h c (by rw [htext]; simp)
  rw [clean c List.mem_cons_self] at hc
  cases hc

namespace Cut

variable (h : Cut isDelimiter text skip piece ending left)
  (hbefore : ∀ c, before.getLast? = some c → isDelimiter c = true)
include h hbefore

/-- The next token is a run. -/
theorem isRun_piece :
    IsRun (before ++ text) ⟨size (before ++ skip), size (before ++ skip ++ piece)⟩ := by
  rw [size_append (before ++ skip) piece]
  refine .intro (h.line_eq before) h.ne_nil h.clean ?_ ?_
  · intro c hc
    rcases List.eq_nil_or_concat' skip with rfl | ⟨l, d, rfl⟩
    · rw [List.append_nil] at hc
      exact hbefore c hc
    · rw [← List.append_assoc, List.getLast?_concat] at hc
      cases hc
      exact h.skipped _ (by simp)
  · intro c hc
    obtain ⟨rfl, rfl⟩ | ⟨e, rfl, he⟩ := h.ended
    · cases hc
    · cases hc
      exact he

omit hbefore in
/-- A run where the piece starts is the piece. -/
theorem run_eq_piece {run after : List Char} (heq : piece ++ (ending ++ left) = run ++ after)
    (clean : ∀ c ∈ run, isDelimiter c = false)
    (hafter : ∀ c, after.head? = some c → isDelimiter c = true) : run = piece := by
  have hrun : (run ++ after).takeWhile (fun c => !isDelimiter c) = run :=
    PortExpression.takeWhile_append_of_stop (fun c hc => by rw [clean c hc]; rfl)
      fun c hc => by rw [hafter c hc]; rfl
  rw [← hrun, ← heq, h.takeWhile_eq]

omit hbefore in
/-- What comes after a delimiter behind the start of the piece comes after what is read. -/
theorem exists_behind {front rest : List Char} {d : Char} (hd : isDelimiter d = true)
    (heq : piece ++ (ending ++ left) = front ++ [d] ++ rest) :
    ∃ between, front ++ [d] = piece ++ (ending ++ between) := by
  have hnot : ¬front ++ [d] <+: piece := by
    intro hinitial
    have hclean := h.clean d (hinitial.subset (by simp))
    rw [hd] at hclean
    cases hclean
  obtain ⟨z, hz, hend⟩ : ∃ z, front ++ [d] = piece ++ z ∧ ending ++ left = z ++ rest := by
    rcases List.append_eq_append_iff.1 heq with hlonger | ⟨z, hz, -⟩
    · exact hlonger
    · exact absurd ⟨z, hz.symm⟩ hnot
  cases z with
  | nil => exact absurd ⟨[], by simpa using hz⟩ hnot
  | cons e z =>
    obtain ⟨hending, hleft⟩ | ⟨e', hending, -⟩ := h.ended
    · simp [hending, hleft] at hend
    · rw [hending] at hend ⊢
      obtain ⟨rfl, -⟩ := List.cons.inj hend
      exact ⟨z, by rw [hz, List.singleton_append]⟩

omit hbefore in
/-- A run of the text that is read is the piece, or it stands behind what is read. -/
theorem run_cases {front run after : List Char} (htext : text = front ++ (run ++ after))
    (ne_nil : run ≠ []) (clean : ∀ c ∈ run, isDelimiter c = false)
    (hfront : ∀ c, front.getLast? = some c → isDelimiter c = true)
    (hafter : ∀ c, after.head? = some c → isDelimiter c = true) :
    front = skip ∧ run = piece ∨ ∃ rest, front = skip ++ (piece ++ (ending ++ rest)) := by
  have heq : skip ++ (piece ++ (ending ++ left)) = front ++ (run ++ after) := h.eq ▸ htext
  rcases List.append_eq_append_iff.1 heq with ⟨y, hy, hrest⟩ | ⟨y, hy, hrest⟩
  · rcases List.eq_nil_or_concat' y with rfl | ⟨l, d, rfl⟩
    · exact .inl ⟨by simpa using hy, h.run_eq_piece (by simpa using hrest) clean hafter⟩
    · -- The character before the run is a delimiter, so the run does not start within the piece.
      have hd : isDelimiter d = true :=
        hfront d (by rw [hy, ← List.append_assoc, List.getLast?_concat])
      obtain ⟨between, hbetween⟩ := h.exists_behind hd hrest
      exact .inr ⟨between, by rw [hy, hbetween]⟩
  · cases y with
    | nil =>
      exact .inl ⟨by simpa using hy.symm, h.run_eq_piece (by simpa using hrest.symm) clean hafter⟩
    | cons d y =>
      -- A run does not start among the delimiters that are skipped.
      obtain ⟨c, r, rfl⟩ := List.exists_cons_of_ne_nil ne_nil
      obtain ⟨rfl, -⟩ := List.cons.inj hrest
      have hc : isDelimiter c = true := h.skipped c (by simp [hy])
      rw [clean c List.mem_cons_self] at hc
      cases hc

/-- The runs behind a place are the next token and the runs behind what is read with it. -/
theorem isRun_iff :
    IsRun (before ++ text) s ∧ size before ≤ s.start ↔
      s = ⟨size (before ++ skip), size (before ++ skip ++ piece)⟩ ∨
        IsRun (before ++ text) s ∧ size (before ++ skip ++ piece ++ ending) ≤ s.start := by
  constructor
  · rintro ⟨hrun, hle⟩
    have hagain := hrun
    obtain ⟨split, ne_nil, clean, hfront, hafter⟩ := hrun
    rename_i b run after
    rw [List.append_assoc] at split
    obtain ⟨front, rfl, htext⟩ := exists_append_of_size_le split.symm hle
    have hlast : ∀ c, front.getLast? = some c → isDelimiter c = true := by
      intro c hc
      refine hfront c ?_
      rw [List.getLast?_append, hc]
      rfl
    rcases h.run_cases htext ne_nil clean hlast hafter with ⟨rfl, rfl⟩ | ⟨rest, rfl⟩
    · exact .inl (by rw [size_append (before ++ front)])
    · refine .inr ⟨hagain, ?_⟩
      simp only [size_append]
      omega
  · rintro (rfl | ⟨hrun, hle⟩)
    · refine ⟨h.isRun_piece hbefore, ?_⟩
      simp only [size_append]
      omega
    · refine ⟨hrun, Nat.le_trans ?_ hle⟩
      simp only [size_append]
      omega

end Cut

/-! ### All tokens -/

theorem tokensFrom_succ (rounds : Nat) (c : Cursor) :
    tokensFrom (rounds + 1) c =
      match c.next with
      | (some token, rest) => token :: tokensFrom rounds rest
      | (none, _) => [] := rfl

/-- The tokens from a place on are the runs from there on: calls answer with these parts, until
nothing is left. -/
structure FindsRuns (before text : List Char) (runs : List Span) : Prop where
  parts : answersAt? (before ++ text) (size before) (List.replicate (runs.length + 1) .token) =
    some (runs.map some ++ [none])
  answers : ∀ rounds, text.length ≤ rounds →
    answers ⟨text⟩ (List.replicate (runs.length + 1) .token) =
      (tokensFrom rounds ⟨text⟩).map some ++ [none]
  few : runs.length ≤ text.length
  exact : ∀ s, s ∈ runs ↔ IsRun (before ++ text) s ∧ size before ≤ s.start
  apart : runs.Pairwise fun s t => s.stop < t.start

theorem findsRuns_nil (h : splitOff isDelimiter text = none) : FindsRuns before text [] where
  parts := by
    simp only [List.length_nil, List.replicate_succ, List.replicate_zero, answersAt?, callAt?,
      pieceAt?_of_none h before]
    rfl
  answers rounds hle := by
    have hnext : next ⟨text⟩ = (none, ⟨[]⟩) := by
      unfold next
      simp only [h]
    have htokens : tokensFrom rounds ⟨text⟩ = [] := by
      cases rounds with
      | zero => rfl
      | succ rounds => rw [tokensFrom_succ, hnext]
    rw [htokens]
    simp only [List.length_nil, List.replicate_succ, List.replicate_zero, answers, call, hnext]
    rfl
  few := Nat.zero_le _
  exact s := by
    constructor
    · intro hs
      exact absurd hs List.not_mem_nil
    · rintro ⟨hrun, hle⟩
      exact absurd hrun (not_isRun_of_delimiters (splitOff_eq_none_iff.1 h) hle)
  apart := .nil

/-- A token more. -/
theorem Cut.findsRuns_cons (h : Cut isDelimiter text skip piece ending left)
    (hs : splitOff isDelimiter text = some (piece, left))
    (hbefore : ∀ c, before.getLast? = some c → isDelimiter c = true) {runs : List Span}
    (hruns : FindsRuns (before ++ skip ++ piece ++ ending) left runs) :
    FindsRuns before text
      (⟨size (before ++ skip), size (before ++ skip ++ piece)⟩ :: runs) := by
  have hline : before ++ skip ++ piece ++ ending ++ left = before ++ text := by
    rw [h.line_eq, List.append_assoc]
  have hnext : next ⟨text⟩ = (some (String.ofList piece), ⟨left⟩) := by
    unfold next
    simp only [hs]
  have hlength := length_splitOff_lt hs
  constructor
  · have hparts := hruns.parts
    rw [hline] at hparts
    rw [List.length_cons, List.replicate_succ, answersAt?, callAt?, h.pieceAt?_eq before]
    simp only [Option.bind_eq_bind, Option.bind_some, hparts]
    rfl
  · intro rounds hle
    obtain ⟨rounds, rfl⟩ := Nat.exists_eq_add_one_of_ne_zero (n := rounds) (by omega)
    have hanswers := hruns.answers rounds (by omega)
    rw [tokensFrom_succ, hnext, List.length_cons, List.replicate_succ, Cursor.answers, call, hnext,
      hanswers]
    rfl
  · have hfew := hruns.few
    rw [List.length_cons]
    omega
  · intro s
    rw [List.mem_cons, hruns.exact, hline, h.isRun_iff hbefore]
  · refine List.pairwise_cons.2 ⟨fun t ht => ?_, hruns.apart⟩
    obtain ⟨hrun, hle⟩ := (hruns.exact t).1 ht
    obtain ⟨rfl, rfl⟩ | ⟨e, rfl, -⟩ := h.ended
    · have hbounds := hrun.bounds
      rw [List.append_nil] at hbounds
      omega
    · have he := e.utf8Size_pos
      rw [size_append _ [e], Text.size_cons, Text.size_nil] at hle
      dsimp only
      omega

/-- From any place on, behind a delimiter or at the front, the tokens are the runs. -/
theorem exists_runs (before text : List Char)
    (hbefore : text = [] ∨ ∀ c, before.getLast? = some c → isDelimiter c = true) :
    ∃ runs, FindsRuns before text runs := by
  -- Each token shortens what is left, so the induction is on its length.
  induction hn : text.length using Nat.strong_induction_on generalizing before text with
  | _ n ih =>
    cases hs : splitOff isDelimiter text with
    | none => exact ⟨[], findsRuns_nil hs⟩
    | some found =>
      obtain ⟨piece, left⟩ := found
      obtain ⟨skip, ending, hcut⟩ := exists_cut hs
      have hlast : ∀ c, before.getLast? = some c → isDelimiter c = true := by
        rcases hbefore with rfl | hlast
        · cases hs
        · exact hlast
      have hbehind : left = [] ∨
          ∀ c, (before ++ skip ++ piece ++ ending).getLast? = some c → isDelimiter c = true := by
        obtain ⟨-, hleft⟩ | ⟨e, rfl, he⟩ := hcut.ended
        · exact .inl hleft
        · refine .inr fun c hc => ?_
          rw [List.getLast?_concat] at hc
          cases hc
          exact he
      obtain ⟨runs, hruns⟩ := ih left.length (hn ▸ length_splitOff_lt hs) _ left hbehind rfl
      exact ⟨_, hcut.findsRuns_cons hs hlast hruns⟩

/-! ### Reading a line -/

/-- What is read of a line by calls on a cursor. -/
structure ReadsLine (line : String) : Prop where
  /-- Whatever the calls, no cut fails, and the answers are parts of the line, of which none is empty
  and each stands behind the ones before. -/
  parts : ∀ ks, ∃ parts, answersAt? line.toList 0 ks = some parts ∧
    Reaches line.toList 0 ((ofLine line).answers ks) parts
  /-- The answers are texts of their kinds. -/
  fits : ∀ ks, List.Forall₂ (fun k answer => ∀ w, answer = some w → k.Fits w.toList) ks
    ((ofLine line).answers ks)
  /-- After a token was missed nothing comes any more. -/
  missed : ∀ (ks : List Call) (i j : Nat), i < j → ks[i]? = some .token →
    ((ofLine line).answers ks)[i]? = some none →
    ∀ answer, ((ofLine line).answers ks)[j]? = some answer → answer = none
  /-- Tokens that are called for until one is missed are the runs of the line, in order, and all of
  its tokens; there are no more calls than characters and one. -/
  tokens : ∃ runs : List Span,
    answersAt? line.toList 0 (List.replicate (runs.length + 1) .token) =
      some (runs.map some ++ [none]) ∧
    (ofLine line).answers (List.replicate (runs.length + 1) .token) =
      (ofLine line).tokens.map some ++ [none] ∧
    runs.length + 1 ≤ line.length + 1 ∧ (runs.Pairwise fun s t => s.stop < t.start) ∧
    ∀ s, s ∈ runs ↔ IsRun line.toList s

theorem readsLine (line : String) : ReadsLine line where
  parts ks := answersAt?_stands (stands_ofLine line) ks
  fits ks := answers_fit (ofLine line) ks
  missed ks i j hij hi hnone answer hj := answers_of_missed hij hi hnone hj
  tokens := by
    obtain ⟨runs, hruns⟩ := exists_runs [] line.toList (.inr fun c hc => by cases hc)
    refine ⟨runs, hruns.parts, hruns.answers _ (Nat.le_refl _), ?_, hruns.apart, fun s => ?_⟩
    · have hfew := hruns.few
      rw [String.length_toList] at hfew
      omega
    · rw [hruns.exact]
      exact and_iff_left (Nat.zero_le _)

end Headend.Config.Cursor
