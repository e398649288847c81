import Headend.Proofs.Frames
import Mathlib.Data.List.Nodup
import Mathlib.Data.List.Pairwise

/-!
# The order of the sections

The sections of a chain are asked one after the other, each with the draft and the line as the ones
before it left them, up to the first that does not pass. No two sections own a keyword, and one that
passes leaves the draft, the line and the records as they were. So a line is given to the owner of
its keyword, wherever it stands in the chain, and to no other section.

Facts: `Section.eq_of_owns` (a keyword has at most one owner), `Section.passes_of_notMine` (a
section passes without a trace), `owner?_eq_some_iff` (only the members of a chain count, not their
order), `dispatch_orderFree`.
-/

namespace Headend.Config

/-! ### Owners -/

namespace Section

/-- Whether a section owns a keyword: on some context it does not pass. -/
def Owns (s : Section) (keyword : String) : Prop :=
  ∃ ctx, ∀ ctx', s.recognize.run keyword ctx ≠ .ok .notMine ctx'

theorem mem_all (s : Section) : s ∈ all := by
  cases s <;> decide

variable {s s' : Section} {keyword : String}

theorem owns_of_directive {d : Directive} (h : s.directive? keyword = some d) :
    s.Owns keyword := by
  refine ⟨{ draft := {}, left := ⟨[]⟩ }, fun ctx' hpass => ?_⟩
  rw [(notMine_iff.1 hpass).1] at h
  cases h

theorem exists_directive_of_owns (h : s.Owns keyword) : ∃ d, s.directive? keyword = some d := by
  obtain ⟨ctx, hctx⟩ := h
  by_contra hnone
  rw [not_exists] at hnone
  exact hctx ctx (notMine_iff.2 ⟨Option.eq_none_iff_forall_ne_some.2 hnone, rfl⟩)

/-- A keyword has at most one owner. -/
theorem eq_of_owns (h : s.Owns keyword) (h' : s'.Owns keyword) : s = s' := by
  obtain ⟨-, hapart⟩ := List.nodup_flatMap.1 keywords_nodup
  by_contra hne
  have : Std.Symm (Function.onFun List.Disjoint fun s : Section => s.vocabulary.map (·.1)) :=
    ⟨fun _ _ hd => List.disjoint_symm hd⟩
  exact hapart.forall s.mem_all s'.mem_all hne (mem_keys_iff.2 (exists_directive_of_owns h))
    (mem_keys_iff.2 (exists_directive_of_owns h'))

/-- A section that passes does not own the keyword, and leaves the context as it was. -/
theorem passes_of_notMine {ctx ctx' : Context}
    (h : s.recognize.run keyword ctx = .ok .notMine ctx') : ¬s.Owns keyword ∧ ctx' = ctx := by
  obtain ⟨hnone, hctx⟩ := notMine_iff.1 h
  refine ⟨fun howns => ?_, hctx⟩
  obtain ⟨d, hd⟩ := exists_directive_of_owns howns
  rw [hnone] at hd
  cases hd

end Section

/-- Which section of a chain owns a keyword is settled by the members of the chain. -/
theorem owner?_eq_some_iff {chain : List Section} {keyword : String} {s : Section} {d : Directive} :
    owner? chain keyword = some (s, d) ↔ s ∈ chain ∧ s.directive? keyword = some d := by
  refine ⟨owner?_eq_some, fun ⟨hs, hd⟩ => ?_⟩
  cases ho : owner? chain keyword with
  | none =>
    have hnone := List.findSome?_eq_none_iff.1 ho s hs
    rw [hd] at hnone
    cases hnone
  | some found =>
    obtain ⟨s', d'⟩ := found
    obtain ⟨-, hd'⟩ := owner?_eq_some ho
    obtain rfl := Section.eq_of_owns (Section.owns_of_directive hd) (Section.owns_of_directive hd')
    rw [hd, Option.some_inj] at hd'
    rw [hd']

/-! ### Chains in another order -/

theorem owner?_perm {chain chain' : List Section} (h : chain.Perm chain') (keyword : String) :
    owner? chain keyword = owner? chain' keyword := by
  refine Option.ext fun found => ?_
  obtain ⟨s, d⟩ := found
  rw [owner?_eq_some_iff, owner?_eq_some_iff, h.mem_iff]

theorem dispatch_perm {chain chain' : List Section} (h : chain.Perm chain') (draft : Draft)
    (raw : String) : dispatch chain draft raw = dispatch chain' draft raw := by
  rw [dispatch_eq, dispatch_eq]
  simp only [owner?_perm h]

/-- In which order the sections are asked makes no difference. -/
structure OrderFree (chain : List Section) : Prop where
  /-- Every line has the same outcome, leaves the same draft and the same records. -/
  same : ∀ draft raw, dispatch chain draft raw = dispatch Section.all draft raw
  /-- A keyword has at most one owner. -/
  owner : ∀ keyword (s s' : Section), s.Owns keyword → s'.Owns keyword → s = s'
  /-- A section that passes does not own the keyword, has taken nothing from the line, has left no
  record, and has changed nothing. -/
  passes : ∀ (s : Section) keyword ctx ctx', s.recognize.run keyword ctx = .ok .notMine ctx' →
    ¬s.Owns keyword ∧ ctx' = ctx

theorem dispatch_orderFree {chain : List Section} (h : chain.Perm Section.all) :
    OrderFree chain where
  same := dispatch_perm h
  owner _ _ _ := Section.eq_of_owns
  passes _ _ _ _ := Section.passes_of_notMine

/-- The sections, asked from the last to the first. -/
theorem dispatch_orderFree_reverse : Section.all.reverse.Perm Section.all ∧
    OrderFree Section.all.reverse :=
  ⟨List.reverse_perm _, dispatch_orderFree (List.reverse_perm _)⟩

end Headend.Config
