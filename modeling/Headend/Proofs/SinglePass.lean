import Headend.Proofs.Replacement
import Mathlib.Data.List.Nodup

/-!
# Templates in one pass

Tokens that are replaced one after the other are looked for again in what was put in before. This
makes no difference where every token starts with a mark that stands nowhere else in a token, and no
value shares a character with a token: the result is that of one pass over the template, from left
to right, which writes a value where its token stands and keeps every other character. So the order
of the tokens plays no role.

Facts: `OnePass.split` (what has no mark is kept), `OnePass.replace` (one more token),
`onePass_foldl_replace` (all of them), `OnePass.unique`, `expansion_expand` (templates).
-/

namespace Headend.Text

/-- A text is read once from left to right: where a token stands its value is written, and every
other character is kept. -/
inductive OnePass (bs : List (List Char × List Char)) : List Char → List Char → Prop where
  | done : OnePass bs [] []
  | replaced {b : List Char × List Char} {cs out : List Char} :
    b ∈ bs → OnePass bs cs out → OnePass bs (b.1 ++ cs) (b.2 ++ out)
  | kept {c : Char} {cs out : List Char} :
    (∀ b ∈ bs, ¬b.1 <+: c :: cs) → OnePass bs cs out → OnePass bs (c :: cs) (c :: out)

/-- Tokens that start with a mark, which stands nowhere else in them. None of them is the beginning
of another, and no value shares a character with them. -/
structure Marked (mark : Char) (bs : List (List Char × List Char)) : Prop extends Apart bs where
  marked : ∀ b ∈ bs, ∃ t, b.1 = mark :: t ∧ mark ∉ t
  eq_of_prefix : ∀ b ∈ bs, ∀ b' ∈ bs, b.1 <+: b'.1 → b = b'

section

variable {mark c : Char} {bs bs' : List (List Char × List Char)} {b : List Char × List Char}
  {cs out out' t token value : List Char}

theorem Marked.mono (hm : Marked mark bs) (h : ∀ b ∈ bs', b ∈ bs) : Marked mark bs' where
  token_ne b hb := hm.token_ne b (h b hb)
  value_ne b hb := hm.value_ne b (h b hb)
  disjoint b hb b' hb' := hm.disjoint b (h b hb) b' (h b' hb')
  marked b hb := hm.marked b (h b hb)
  eq_of_prefix b hb b' hb' := hm.eq_of_prefix b (h b hb) b' (h b' hb')

theorem Marked.not_prefix (hm : Marked mark bs) (hb : b ∈ bs) (hc : c ≠ mark) :
    ¬b.1 <+: c :: cs := by
  obtain ⟨t, ht, -⟩ := hm.marked b hb
  rw [ht]
  exact fun h => hc (List.cons_prefix_cons.1 h).1.symm

theorem Marked.mark_notMem_value (hm : Marked mark bs) (hb : b ∈ bs) : mark ∉ b.2 := by
  obtain ⟨t, ht, -⟩ := hm.marked b hb
  intro hmem
  exact hm.disjoint b hb b hb mark hmem (ht ▸ List.mem_cons_self)

/-! ### One pass -/

theorem onePass_nil (cs : List Char) : OnePass [] cs cs := by
  induction cs with
  | nil => exact .done
  | cons c r ih => exact .kept (fun _ h => absurd h List.not_mem_nil) ih

theorem OnePass.congr (h : ∀ b, b ∈ bs ↔ b ∈ bs') (hpass : OnePass bs cs out) :
    OnePass bs' cs out := by
  induction hpass with
  | done => exact .done
  | replaced hb _ ih => exact .replaced ((h _).1 hb) ih
  | kept hnone _ ih => exact .kept (fun b hb => hnone b ((h b).2 hb)) ih

/-- A text without the mark at the front is kept. -/
theorem OnePass.split (hm : Marked mark bs) (ht : mark ∉ t) (h : OnePass bs (t ++ cs) out) :
    ∃ rest, out = t ++ rest ∧ OnePass bs cs rest := by
  induction t generalizing out with
  | nil => exact ⟨out, rfl, h⟩
  | cons a t ih =>
    obtain ⟨ha, ht'⟩ := not_or.1 (List.mem_cons.not.1 ht)
    rw [List.cons_append] at h
    generalize htext : a :: (t ++ cs) = text at h
    cases h with
    | done => cases htext
    | @replaced b r out hb _ =>
      exact absurd (htext ▸ List.prefix_append b.1 r) (hm.not_prefix hb (Ne.symm ha))
    | kept _ hrest =>
      obtain ⟨rfl, rfl⟩ := List.cons.inj htext
      obtain ⟨rest, rfl, hpass⟩ := ih ht' hrest
      exact ⟨rest, rfl, hpass⟩

/-- What has no mark and shares no character with the values stands in front of the result exactly
if it stands in front of the text. -/
theorem OnePass.prefix_iff (hm : Marked mark bs) (ht : mark ∉ t)
    (hd : ∀ b ∈ bs, ∀ c ∈ b.2, c ∉ t) (h : OnePass bs cs out) : t <+: out ↔ t <+: cs := by
  constructor
  · intro hout
    induction h generalizing t with
    | done => exact hout
    | @replaced b r out hb _ _ =>
      obtain ⟨v, w, hv⟩ := List.exists_cons_of_ne_nil (hm.value_ne b hb)
      rw [hv, List.cons_append] at hout
      match t with
      | [] => exact List.nil_prefix
      | a :: u =>
        obtain rfl := (List.cons_prefix_cons.1 hout).1
        exact absurd List.mem_cons_self (hd b hb a (hv ▸ List.mem_cons_self))
    | kept _ _ ih =>
      match t with
      | [] => exact List.nil_prefix
      | a :: u =>
        obtain ⟨rfl, hu⟩ := List.cons_prefix_cons.1 hout
        have hu' := ih (fun h => ht (List.mem_cons_of_mem a h))
          (fun b hb c hc h => hd b hb c hc (List.mem_cons_of_mem a h)) hu
        exact List.cons_prefix_cons.2 ⟨rfl, hu'⟩
  · rintro ⟨r, rfl⟩
    obtain ⟨rest, rfl, -⟩ := h.split hm ht
    exact List.prefix_append t rest

/-- A text has one result. -/
theorem OnePass.unique (hm : Marked mark bs) (h : OnePass bs cs out) (h' : OnePass bs cs out') :
    out = out' := by
  induction h generalizing out' with
  | done =>
    generalize htext : [] = text at h'
    cases h' with
    | done => rfl
    | replaced hb _ => exact absurd (List.append_eq_nil_iff.1 htext.symm).1 (hm.token_ne _ hb)
    | kept => cases htext
  | @replaced b r out hb _ ih =>
    generalize htext : b.1 ++ r = text at h'
    cases h' with
    | done => exact absurd (List.append_eq_nil_iff.1 htext).1 (hm.token_ne b hb)
    | @replaced b' r' out' hb' hrest =>
      obtain rfl : b = b' := by
        have hp' : b'.1 <+: b.1 ++ r := htext ▸ List.prefix_append b'.1 r'
        rcases List.prefix_or_prefix_of_prefix (List.prefix_append b.1 r) hp' with hp | hp
        · exact hm.eq_of_prefix b hb b' hb' hp
        · exact (hm.eq_of_prefix b' hb' b hb hp).symm
      obtain rfl := List.append_cancel_left htext
      rw [ih hrest]
    | kept hnone _ => exact absurd (htext ▸ List.prefix_append b.1 r) (hnone b hb)
  | @kept c r out hnone _ ih =>
    generalize htext : c :: r = text at h'
    cases h' with
    | done => cases htext
    | @replaced b' r' _ hb' _ => exact absurd (htext ▸ List.prefix_append b'.1 r') (hnone b' hb')
    | kept _ hrest =>
      obtain ⟨rfl, rfl⟩ := List.cons.inj htext
      rw [ih hrest]

/-! ### One replacement -/

theorem replaceFrom_append_of_notMem (hv : mark ∉ t) (cs : List Char) :
    replaceFrom (mark :: token) value 0 (t ++ cs) =
      t ++ replaceFrom (mark :: token) value 0 cs := by
  induction t with
  | nil => rfl
  | cons a t ih =>
    obtain ⟨ha, ht⟩ := not_or.1 (List.mem_cons.not.1 hv)
    have hp : (mark :: token).isPrefixOf (a :: (t ++ cs)) = false := by
      rw [Bool.eq_false_iff, ne_eq, List.isPrefixOf_iff_prefix]
      exact fun h => ha (List.cons_prefix_cons.1 h).1
    rw [List.cons_append, replaceFrom, if_neg (Bool.eq_false_iff.1 hp), ih ht, List.cons_append]

theorem replaceFrom_skip (t cs : List Char) :
    replaceFrom token value t.length (t ++ cs) = replaceFrom token value 0 cs := by
  induction t with
  | nil => rfl
  | cons a t ih => exact ih

theorem replaceFrom_token (cs : List Char) :
    replaceFrom (mark :: t) value 0 (mark :: (t ++ cs)) =
      value ++ replaceFrom (mark :: t) value 0 cs := by
  have hp : (mark :: t).isPrefixOf (mark :: (t ++ cs)) = true :=
    List.isPrefixOf_iff_prefix.2 (List.prefix_append (mark :: t) cs)
  rw [replaceFrom, if_pos hp, List.length_cons, Nat.add_sub_cancel,
    replaceFrom_skip]

/-- Replacing one more token in the result of a pass gives the result of a pass with that token. -/
theorem OnePass.replace (hm : Marked mark (b :: bs)) (h : OnePass bs cs out) :
    OnePass (b :: bs) cs (replace out b.1 b.2) := by
  have hm' : Marked mark bs := hm.mono fun _ => List.mem_cons_of_mem b
  obtain ⟨t, ht, hmark⟩ := hm.marked b List.mem_cons_self
  have hdisjoint : ∀ d ∈ bs, ∀ c ∈ d.2, c ∉ t := by
    intro d hd c hc hct
    refine hm.disjoint d (List.mem_cons_of_mem b hd) b List.mem_cons_self c hc ?_
    rw [ht]
    exact List.mem_cons_of_mem mark hct
  rw [Text.replace, if_neg (hm.token_ne b List.mem_cons_self), ht]
  induction h with
  | done => exact .done
  | @replaced d r out hd _ ih =>
    rw [replaceFrom_append_of_notMem (hm'.mark_notMem_value hd)]
    exact .replaced (List.mem_cons_of_mem b hd) ih
  | @kept c r out hnone hrest ih =>
    by_cases hp : b.1 <+: c :: r
    · -- The token is met: what follows its mark was kept, so the pass has got past it.
      rw [ht] at hp
      obtain ⟨rfl, r', rfl⟩ := List.cons_prefix_cons.1 hp
      obtain ⟨rest, rfl, -⟩ := hrest.split hm' hmark
      rw [replaceFrom_append_of_notMem hmark] at ih
      obtain ⟨rest', heq, hpass⟩ := ih.split hm hmark
      obtain rfl := List.append_cancel_left heq
      have hmet := OnePass.replaced (List.mem_cons_self (a := b) (l := bs)) hpass
      rw [ht] at hmet
      rw [List.cons_append] at hmet
      rwa [replaceFrom_token]
    · have hp' : ¬mark :: t <+: c :: out := by
        intro h
        obtain ⟨rfl, hafter⟩ := List.cons_prefix_cons.1 h
        refine hp ?_
        rw [ht]
        exact List.cons_prefix_cons.2 ⟨rfl, (hrest.prefix_iff hm' hmark hdisjoint).1 hafter⟩
      rw [replaceFrom, if_neg (List.isPrefixOf_iff_prefix.not.2 hp')]
      exact .kept (List.forall_mem_cons.2 ⟨hp, hnone⟩) ih

/-- Replacing tokens one after the other gives the result of one pass. -/
theorem onePass_foldl_replace {ds : List (List Char × List Char)} (hm : Marked mark (ds ++ bs))
    (h : OnePass bs cs out) :
    OnePass (ds ++ bs) cs (ds.foldl (fun cs b => Text.replace cs b.1 b.2) out) := by
  induction ds generalizing bs out with
  | nil => exact h
  | cons d ds ih =>
    have hmem : ∀ b, b ∈ ds ++ d :: bs ↔ b ∈ d :: ds ++ bs := by
      intro b
      simp only [List.cons_append, List.mem_append, List.mem_cons]
      exact or_left_comm
    have hmore : OnePass (d :: bs) cs (Text.replace out d.1 d.2) := by
      refine OnePass.replace (hm.mono fun b hb => ?_) h
      rw [List.cons_append, List.mem_cons, List.mem_append]
      exact (List.mem_cons.1 hb).imp_right .inr
    exact (ih (hm.mono fun b hb => (hmem b).1 hb) hmore).congr hmem

end

end Headend.Text

namespace Headend.Config.TemplateValues

open Headend.Text (Marked OnePass)

variable (v : TemplateValues)

/-! ### Templates -/

theorem marked_bindings : Marked '%' v.bindings where
  toApart := v.apart_bindings
  marked b hb := by
    have h : ∀ t ∈ [cardToken, tunerToken, serverToken],
        t = '%' :: t.tail ∧ '%' ∉ t.tail := by decide
    exact ⟨b.1.tail, h b.1 (v.of_mem_bindings hb).1⟩
  eq_of_prefix b hb b' hb' hp := by
    have h : ∀ t ∈ [cardToken, tunerToken, serverToken],
        ∀ t' ∈ [cardToken, tunerToken, serverToken], t.isPrefixOf t' → t = t' := by decide
    have heq : b.1 = b'.1 := h b.1 (v.of_mem_bindings hb).1 b'.1 (v.of_mem_bindings hb').1
      (List.isPrefixOf_iff_prefix.2 hp)
    have hnodup : (v.bindings.map (·.1)).Nodup := by
      have hnames : [cardToken, tunerToken, serverToken].Nodup := by decide
      exact hnames
    exact List.inj_on_of_nodup_map hnodup hb hb' heq

theorem onePass_foldl_bindings {order : List (List Char × List Char)}
    (horder : order.Perm v.bindings) (template : List Char) :
    OnePass v.bindings template
      (order.foldl (fun cs b => Text.replace cs b.1 b.2) template) := by
  have hm : Marked '%' (order ++ []) := by
    rw [List.append_nil]
    exact v.marked_bindings.mono fun _ h => horder.subset h
  refine (Text.onePass_foldl_replace hm (Text.onePass_nil template)).congr fun b => ?_
  rw [List.append_nil]
  exact horder.mem_iff

/-- What is made of a template: it names nothing any more, expanding it again changes nothing, it is
the same in whatever order the names are replaced, and it is what one pass over the template
gives. -/
structure Expansion (template result : String) : Prop where
  clean : ∀ name ∈ [cardToken, tunerToken, serverToken], ¬name <:+: result.toList
  stable : v.expand result = result
  anyOrder : ∀ order : List (List Char × List Char), order.Perm v.bindings →
    order.foldl (fun cs b => Text.replace cs b.1 b.2) template.toList = result.toList
  onePass : ∀ out, OnePass v.bindings template.toList out ↔ out = result.toList

theorem expansion_expand (template : String) : v.Expansion template (v.expand template) := by
  have htext : (v.expand template).toList = v.expandText template.toList := String.toList_ofList
  have hpass : OnePass v.bindings template.toList (v.expandText template.toList) :=
    v.onePass_foldl_bindings (List.Perm.refl _) template.toList
  refine ⟨fun name hname => ?_, v.expand_expand template, fun order horder => ?_, fun out => ?_⟩
  · obtain ⟨b, hb, rfl⟩ := List.mem_map.1 (show name ∈ v.bindings.map (·.1) from hname)
    rw [htext]
    exact v.expandText_clean template.toList hb
  · rw [htext]
    exact (v.onePass_foldl_bindings horder template.toList).unique v.marked_bindings hpass
  · rw [htext]
    exact ⟨fun h => h.unique v.marked_bindings hpass, fun h => h ▸ hpass⟩

example : (TemplateValues.mk 2 1 (-7)).expandText "%ca%tunerrd%server%%card".toList =
    "%ca1rd-7%2".toList := by decide

end Headend.Config.TemplateValues
