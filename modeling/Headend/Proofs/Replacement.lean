import Headend.Config.Template

/-!
# What a replacement leaves

A value that shares no character with a token cannot become part of one. So once the occurrences of
a token have been replaced none is left, and a token that did not occur does not come up.

Facts: `not_infix_replace_self` and `not_infix_replace` (a single replacement),
`not_infix_foldl_replace` (several, one after the other), `expandText_clean` (an expanded template
names nothing) and `expand_expand` (expanding again changes nothing).
-/

namespace Headend.Text

variable {token value u cs : List Char}

/-! ### One replacement -/

theorem infix_of_infix_append (hu : u ≠ []) (hd : ∀ c ∈ value, c ∉ u) (h : u <:+: value ++ cs) :
    u <:+: cs := by
  induction value with
  | nil => exact h
  | cons v r ih =>
    rw [List.cons_append, List.infix_cons_iff] at h
    obtain h | h := h
    · obtain ⟨a, w, rfl⟩ := List.exists_cons_of_ne_nil hu
      have hv : a = v := (List.cons_prefix_cons.1 h).1
      exact absurd (hv ▸ List.mem_cons_self) (hd v List.mem_cons_self)
    · exact ih (fun c hc => hd c (List.mem_cons_of_mem v hc)) h

/-- What stands first in the result and shares no character with the value stood first before. -/
theorem prefix_of_prefix_replaceFrom (hv : value ≠ []) (hd : ∀ c ∈ value, c ∉ u)
    (h : u <+: replaceFrom token value 0 cs) : u <+: cs := by
  induction cs generalizing u with
  | nil => exact h
  | cons c r ih =>
    match u with
    | [] => exact List.nil_prefix
    | a :: w =>
      rw [replaceFrom] at h
      split at h
      · obtain ⟨b, vs, rfl⟩ := List.exists_cons_of_ne_nil hv
        have hb : a = b := (List.cons_prefix_cons.1 h).1
        exact absurd (hb ▸ List.mem_cons_self) (hd b List.mem_cons_self)
      · obtain ⟨rfl, hw⟩ := List.cons_prefix_cons.1 h
        have hr := ih (fun d hdv hdw => hd d hdv (List.mem_cons_of_mem a hdw)) hw
        exact List.cons_prefix_cons.2 ⟨rfl, hr⟩

/-- A text that occurs only where the token does is gone after the replacement. -/
theorem not_infix_replaceFrom (hu : u ≠ []) (hv : value ≠ []) (hd : ∀ c ∈ value, c ∉ u)
    (h : ∀ r, r <:+ cs → u <+: r → token <+: r) (skip : Nat) :
    ¬ u <:+: replaceFrom token value skip cs := by
  induction cs generalizing skip with
  | nil =>
    cases skip <;> exact fun hi => hu (List.infix_nil.1 hi)
  | cons c r ih =>
    have hr : ∀ k, ¬ u <:+: replaceFrom token value k r :=
      ih fun t ht => h t (ht.trans (List.suffix_cons c r))
    cases skip with
    | succ k => exact hr k
    | zero =>
      by_cases hp : token.isPrefixOf (c :: r)
      · rw [replaceFrom, if_pos hp]
        exact fun hi => hr _ (infix_of_infix_append hu hd hi)
      · intro hi
        have hf : replaceFrom token value 0 (c :: r) = c :: replaceFrom token value 0 r := by
          rw [replaceFrom, if_neg hp]
        rw [hf, List.infix_cons_iff, ← hf] at hi
        obtain hi | hi := hi
        · have hc := prefix_of_prefix_replaceFrom hv hd hi
          exact hp (List.isPrefixOf_iff_prefix.2 (h _ List.suffix_rfl hc))
        · exact hr 0 hi

theorem not_infix_replace_self (ht : token ≠ []) (hv : value ≠ []) (hd : ∀ c ∈ value, c ∉ token) :
    ¬ token <:+: replace cs token value := by
  rw [replace, if_neg ht]
  exact not_infix_replaceFrom ht hv hd (fun _ _ h => h) 0

theorem not_infix_replace (ht : token ≠ []) (hu : u ≠ []) (hv : value ≠ [])
    (hd : ∀ c ∈ value, c ∉ u) (h : ¬ u <:+: cs) : ¬ u <:+: replace cs token value := by
  rw [replace, if_neg ht]
  refine not_infix_replaceFrom hu hv hd (fun r hr hp => ?_) 0
  exact absurd (hp.isInfix.trans hr.isInfix) h

/-! ### Several replacements -/

/-- Tokens with values that cannot become part of any of the tokens. -/
structure Apart (bs : List (List Char × List Char)) : Prop where
  token_ne : ∀ b ∈ bs, b.1 ≠ []
  value_ne : ∀ b ∈ bs, b.2 ≠ []
  disjoint : ∀ b ∈ bs, ∀ b' ∈ bs, ∀ c ∈ b.2, c ∉ b'.1

variable {bs : List (List Char × List Char)}

/-- A token that is absent stays absent. -/
theorem not_infix_foldl_replace_of_absent (hb : Apart bs) {ds : List (List Char × List Char)}
    (hds : ∀ d ∈ ds, d ∈ bs) {b : List Char × List Char} (hm : b ∈ bs) (h : ¬ b.1 <:+: cs) :
    ¬ b.1 <:+: ds.foldl (fun cs d => replace cs d.1 d.2) cs := by
  induction ds generalizing cs with
  | nil => exact h
  | cons d r ih =>
    have hd : d ∈ bs := hds d List.mem_cons_self
    refine ih (fun e he => hds e (List.mem_cons_of_mem d he)) ?_
    exact not_infix_replace (hb.token_ne d hd) (hb.token_ne b hm) (hb.value_ne d hd)
      (hb.disjoint d hd b hm) h

theorem not_infix_foldl_replace (hb : Apart bs) {ds : List (List Char × List Char)}
    (hds : ∀ d ∈ ds, d ∈ bs) {b : List Char × List Char} (hm : b ∈ ds) :
    ¬ b.1 <:+: ds.foldl (fun cs d => replace cs d.1 d.2) cs := by
  induction ds generalizing cs with
  | nil => cases hm
  | cons d r ih =>
    have hr : ∀ e ∈ r, e ∈ bs := fun e he => hds e (List.mem_cons_of_mem d he)
    obtain rfl | hm := List.mem_cons.1 hm
    · have hd := hds b List.mem_cons_self
      exact not_infix_foldl_replace_of_absent hb hr hd
        (not_infix_replace_self (hb.token_ne b hd) (hb.value_ne b hd) (hb.disjoint b hd b hd))
    · exact ih hr hm

theorem foldl_replace_of_absent (h : ∀ b ∈ bs, ¬ b.1 <:+: cs) :
    bs.foldl (fun cs b => replace cs b.1 b.2) cs = cs := by
  induction bs with
  | nil => rfl
  | cons b r ih =>
    rw [List.foldl_cons, replace_of_absent (h b List.mem_cons_self)]
    exact ih fun d hd => h d (List.mem_cons_of_mem b hd)

end Headend.Text

namespace Headend.Config.TemplateValues

open Headend.Text (Apart)

variable (v : TemplateValues)

/-! ### Templates -/

/-- A character of a decimal number with a sign. -/
def isDecimal (c : Char) : Bool := c.isDigit || c == '-'

theorem isDecimal_of_mem_repr {n : Nat} {c : Char} (h : c ∈ (toString n).toList) :
    isDecimal c = true := by
  rw [Nat.toString_eq_repr, Nat.toList_repr] at h
  rw [isDecimal, Nat.isDigit_of_mem_toDigits (by decide) (by decide) h, Bool.true_or]

theorem isDecimal_of_mem_toString {n : Int} {c : Char} (h : c ∈ (toString n).toList) :
    isDecimal c = true := by
  cases n with
  | ofNat n => exact isDecimal_of_mem_repr h
  | negSucc n =>
    have hs : toString (Int.negSucc n) = "-" ++ toString (n + 1) := rfl
    rw [hs, String.toList_append, List.mem_append] at h
    obtain h | h := h
    · have hc : c = '-' := by simpa using h
      rw [hc]
      rfl
    · exact isDecimal_of_mem_repr h

theorem toString_toList_ne_nil (n : Int) : (toString n).toList ≠ [] := by
  cases n with
  | ofNat n =>
    have hs : toString (Int.ofNat n) = toString n := rfl
    rw [hs, Nat.toString_eq_repr, Nat.toList_repr]
    exact Nat.toDigits_ne_nil
  | negSucc n =>
    have hs : toString (Int.negSucc n) = "-" ++ toString (n + 1) := rfl
    rw [hs, String.toList_append]
    exact List.append_ne_nil_of_left_ne_nil (by decide) _

/-- A name with the number in its place. -/
theorem of_mem_bindings {b : List Char × List Char} (hb : b ∈ v.bindings) :
    b.1 ∈ [cardToken, tunerToken, serverToken] ∧ ∃ n : Int, b.2 = (toString n).toList := by
  simp only [bindings, List.mem_cons, List.not_mem_nil, or_false] at hb
  obtain rfl | rfl | rfl := hb
  · exact ⟨by simp, Int.ofNat v.card.toNat, rfl⟩
  · exact ⟨by simp, Int.ofNat v.tuner.toNat, rfl⟩
  · exact ⟨by simp, v.server, rfl⟩

theorem not_isDecimal_of_mem_token :
    ∀ t ∈ [cardToken, tunerToken, serverToken], ∀ c ∈ t, isDecimal c = false := by
  have h : [cardToken, tunerToken, serverToken].all (fun t => t.all fun c => !isDecimal c) := by
    decide
  intro t ht c hc
  have hc' := List.all_eq_true.1 (List.all_eq_true.1 h t ht) c hc
  simpa using hc'

theorem apart_bindings : Apart v.bindings where
  token_ne b hb := by
    have h : ∀ t ∈ [cardToken, tunerToken, serverToken], t ≠ [] := by decide
    exact h b.1 (v.of_mem_bindings hb).1
  value_ne b hb := by
    obtain ⟨-, n, hn⟩ := v.of_mem_bindings hb
    rw [hn]
    exact toString_toList_ne_nil n
  disjoint b hb b' hb' c hc hc' := by
    obtain ⟨-, n, hn⟩ := v.of_mem_bindings hb
    have h := isDecimal_of_mem_toString (hn ▸ hc)
    rw [not_isDecimal_of_mem_token b'.1 (v.of_mem_bindings hb').1 c hc'] at h
    cases h

/-- An expanded template holds none of the names. -/
theorem expandText_clean (template : List Char) {b : List Char × List Char} (hb : b ∈ v.bindings) :
    ¬ b.1 <:+: v.expandText template :=
  Text.not_infix_foldl_replace v.apart_bindings (fun _ h => h) hb

theorem expandText_expandText (template : List Char) :
    v.expandText (v.expandText template) = v.expandText template :=
  Text.foldl_replace_of_absent fun _ hb => v.expandText_clean template hb

@[simp] theorem expand_expand (template : String) :
    v.expand (v.expand template) = v.expand template := by
  simp only [expand, String.toList_ofList, expandText_expandText]

end Headend.Config.TemplateValues
