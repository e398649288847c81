import Headend.Proofs.ExpressionGrammar

/-!
# The value of a text

The grammar of port expressions is unambiguous: a literal is cut off a text in one way only, so a
text is written for at most one syntax tree. The texts of a tree are the layouts of it, which put
any blanks around each literal and any zeros before its digits. So the evaluator gives each text the
value of its tree, and refuses it exactly if there is no tree or a literal of it is too large.

Facts: `writesExpression_unique` (one tree for a text), `writesExpression_iff_layout` (its texts),
`value?_of_text` (the value of every text).
-/

namespace Headend.Config.PortExpression

open Headend.Number (isSpace natural largest natural_zeros_toDigits isDigit_of_mem_zeros_toDigits
  exists_zeros_of_digits)

/-! ### One tree for a text -/

section

variable {t t' r r' : List Char}

theorem writesNumber_unique {n m : Nat} (h : WritesNumber n t) (h' : WritesNumber m t')
    (hr : Stops r) (hr' : Stops r') (htext : t ++ r = t' ++ r') : n = m ∧ r = r' := by
  obtain ⟨-, hn, hrest⟩ := cut_writesNumber h hr
  obtain ⟨-, hm, hrest'⟩ := cut_writesNumber h' hr'
  rw [htext] at hn hrest
  exact ⟨hn.symm.trans hm, hrest.symm.trans hrest'⟩

theorem writesFactors_unique {ns ms : List Nat} (h : WritesFactors ns t)
    (h' : WritesFactors ms t') (hr : Stops r) (hr' : Stops r') (hne : r.head? ≠ some '*')
    (hne' : r'.head? ≠ some '*') (htext : t ++ r = t' ++ r') : ns = ms ∧ r = r' := by
  -- The `*` in front of each factor tells whether the other text goes on with one as well.
  induction h generalizing ms t' with
  | nil =>
    cases h' with
    | nil => exact ⟨rfl, htext⟩
    | cons hm hms =>
      rw [List.nil_append] at htext
      rw [htext] at hne
      exact absurd rfl hne
  | cons hn hns ih =>
    cases h' with
    | nil =>
      rw [List.nil_append] at htext
      rw [← htext] at hne'
      exact absurd rfl hne'
    | cons hm hms =>
      simp only [List.cons_append, List.append_assoc, List.cons.injEq, true_and] at htext
      obtain ⟨rfl, hrest⟩ := writesNumber_unique hn hm (stops_factors hns hr)
        (stops_factors hms hr') htext
      obtain ⟨rfl, rfl⟩ := ih hms hrest
      exact ⟨rfl, rfl⟩

theorem writesProduct_unique {p q : Product} (h : WritesProduct p t) (h' : WritesProduct q t')
    (hr : Stops r) (hr' : Stops r') (hne : r.head? ≠ some '*') (hne' : r'.head? ≠ some '*')
    (htext : t ++ r = t' ++ r') : p = q ∧ r = r' := by
  obtain ⟨hn, hns⟩ := h
  obtain ⟨hm, hms⟩ := h'
  rw [List.append_assoc, List.append_assoc] at htext
  obtain ⟨rfl, hrest⟩ := writesNumber_unique hn hm (stops_factors hns hr) (stops_factors hms hr')
    htext
  obtain ⟨rfl, rfl⟩ := writesFactors_unique hns hms hr hr' hne hne' hrest
  exact ⟨rfl, rfl⟩

theorem sign_injective {op op' : Operator} (h : op.sign = op'.sign) : op = op' := by
  revert h
  cases op <;> cases op' <;> decide

theorem writesTerms_unique {ps qs : List (Operator × Product)} (h : WritesTerms ps t)
    (h' : WritesTerms qs t) : ps = qs := by
  induction h generalizing qs with
  | nil =>
    cases h'
    rfl
  | cons op hp hps ih =>
    generalize htext : op.sign :: (_ ++ _) = text at h'
    cases h' with
    | nil => cases htext
    | cons op' hq hqs =>
      obtain ⟨hsign, hrest⟩ := List.cons.inj htext
      obtain rfl := sign_injective hsign
      obtain ⟨hstop, hne⟩ := stops_terms hps
      obtain ⟨hstop', hne'⟩ := stops_terms hqs
      obtain ⟨rfl, rfl⟩ := writesProduct_unique hp hq hstop hstop' hne hne' hrest
      rw [ih hqs]

/-- A text is written for one syntax tree at most. -/
theorem writesExpression_unique {x y : Expression} (h : WritesExpression x t)
    (h' : WritesExpression y t) : x = y := by
  obtain @⟨p, ps, u, v, hp, hps⟩ := h
  generalize htext : u ++ v = text at h'
  obtain ⟨hq, hqs⟩ := h'
  obtain ⟨hstop, hne⟩ := stops_terms hps
  obtain ⟨hstop', hne'⟩ := stops_terms hqs
  obtain ⟨rfl, rfl⟩ := writesProduct_unique hp hq hstop hstop' hne hne' htext
  rw [writesTerms_unique hps hqs]

end

/-! ### Layouts -/

/-- A literal as it stands in a text: with zeros before its digits, and blanks around them. -/
structure LaidLiteral where
  value : Nat
  zeros : Nat
  before : List Char
  after : List Char
  before_blank : ∀ c ∈ before, isSpace c = true
  after_blank : ∀ c ∈ after, isSpace c = true

/-- A product as it stands in a text. -/
structure LaidProduct where
  first : LaidLiteral
  others : List LaidLiteral

/-- A sum as it stands in a text. -/
structure LaidExpression where
  first : LaidProduct
  others : List (Operator × LaidProduct)

/-- The text of a literal. -/
def LaidLiteral.text (l : LaidLiteral) : List Char :=
  l.before ++ ((List.replicate l.zeros '0' ++ Nat.toDigits 10 l.value) ++ l.after)

/-- The text of a product. -/
def LaidProduct.text (p : LaidProduct) : List Char :=
  p.first.text ++ p.others.flatMap fun l => '*' :: l.text

/-- The text of a sum. -/
def LaidExpression.text (x : LaidExpression) : List Char :=
  x.first.text ++ x.others.flatMap fun t => t.1.sign :: t.2.text

/-- The product without its layout. -/
def LaidProduct.plain (p : LaidProduct) : Product := ⟨p.first.value, p.others.map (·.value)⟩

/-- The sum without its layout. -/
def LaidExpression.plain (x : LaidExpression) : Expression :=
  ⟨x.first.plain, x.others.map fun t => (t.1, t.2.plain)⟩

theorem LaidLiteral.writes (l : LaidLiteral) : WritesNumber l.value l.text := by
  let digits := List.replicate l.zeros '0' ++ Nat.toDigits 10 l.value
  have hne : digits ≠ [] := List.append_ne_nil_of_right_ne_nil _ Nat.toDigits_ne_nil
  have hdigits : ∀ c ∈ digits, c.isDigit = true := fun c hc => isDigit_of_mem_zeros_toDigits hc
  have hvalue : natural digits = l.value := natural_zeros_toDigits l.zeros l.value
  exact hvalue ▸ .intro l.before_blank hne hdigits l.after_blank

theorem writesFactors_layout (ls : List LaidLiteral) :
    WritesFactors (ls.map (·.value)) (ls.flatMap fun l => '*' :: l.text) := by
  induction ls with
  | nil => exact .nil
  | cons l ls ih => exact .cons l.writes ih

theorem LaidProduct.writes (p : LaidProduct) : WritesProduct p.plain p.text :=
  .intro p.first.writes (writesFactors_layout p.others)

theorem writesTerms_layout (ts : List (Operator × LaidProduct)) :
    WritesTerms (ts.map fun t => (t.1, t.2.plain)) (ts.flatMap fun t => t.1.sign :: t.2.text) := by
  induction ts with
  | nil => exact .nil
  | cons t ts ih => exact .cons t.1 t.2.writes ih

theorem LaidExpression.writes (x : LaidExpression) : WritesExpression x.plain x.text :=
  .intro x.first.writes (writesTerms_layout x.others)

section

variable {t : List Char}

theorem exists_laidLiteral {n : Nat} (h : WritesNumber n t) :
    ∃ l : LaidLiteral, l.value = n ∧ l.text = t := by
  obtain ⟨hbefore, hne, hdigits, hafter⟩ := h
  rename_i before digits after
  obtain ⟨zeros, hzeros⟩ := exists_zeros_of_digits hne hdigits
  refine ⟨⟨natural digits, zeros, before, after, hbefore, hafter⟩, rfl, ?_⟩
  rw [LaidLiteral.text, ← hzeros]

theorem exists_laidLiterals {ns : List Nat} (h : WritesFactors ns t) :
    ∃ ls : List LaidLiteral, ls.map (·.value) = ns ∧ (ls.flatMap fun l => '*' :: l.text) = t := by
  induction h with
  | nil => exact ⟨[], rfl, rfl⟩
  | cons hn hns ih =>
    obtain ⟨l, rfl, rfl⟩ := exists_laidLiteral hn
    obtain ⟨ls, rfl, rfl⟩ := ih
    exact ⟨l :: ls, rfl, rfl⟩

theorem exists_laidProduct {p : Product} (h : WritesProduct p t) :
    ∃ q : LaidProduct, q.plain = p ∧ q.text = t := by
  obtain ⟨hn, hns⟩ := h
  obtain ⟨l, rfl, rfl⟩ := exists_laidLiteral hn
  obtain ⟨ls, rfl, rfl⟩ := exists_laidLiterals hns
  exact ⟨⟨l, ls⟩, rfl, rfl⟩

theorem exists_laidTerms {ps : List (Operator × Product)} (h : WritesTerms ps t) :
    ∃ ts : List (Operator × LaidProduct), ts.map (fun t => (t.1, t.2.plain)) = ps ∧
      (ts.flatMap fun t => t.1.sign :: t.2.text) = t := by
  induction h with
  | nil => exact ⟨[], rfl, rfl⟩
  | cons op hp hps ih =>
    obtain ⟨p, rfl, rfl⟩ := exists_laidProduct hp
    obtain ⟨ts, rfl, rfl⟩ := ih
    exact ⟨(op, p) :: ts, rfl, rfl⟩

/-- The texts of a syntax tree are the texts of its layouts. -/
theorem writesExpression_iff_layout {x : Expression} :
    WritesExpression x t ↔ ∃ y : LaidExpression, y.plain = x ∧ y.text = t := by
  constructor
  · rintro ⟨hp, hps⟩
    obtain ⟨p, rfl, rfl⟩ := exists_laidProduct hp
    obtain ⟨ts, rfl, rfl⟩ := exists_laidTerms hps
    exact ⟨⟨p, ts⟩, rfl, rfl⟩
  · rintro ⟨y, rfl, rfl⟩
    exact y.writes

end

/-! ### The value of every text -/

/-- What the evaluator makes of a text. It accepts exactly the texts of the grammar whose literals
fit in 64 bits, with the value of the tree when every step is clamped, and that tree is the only
one. However an expression is laid out, its text has its value. -/
theorem value?_of_text (s : String) :
    (∀ v, value? s = some v ↔
      ∃ x, WritesExpression x s.toList ∧ (∀ n ∈ x.literals, n ≤ largest) ∧ x.clamped = v) ∧
    (value? s = none ↔
      ¬∃ x, WritesExpression x s.toList ∧ ∀ n ∈ x.literals, n ≤ largest) ∧
    (∀ x y, WritesExpression x s.toList → WritesExpression y s.toList → x = y) ∧
    (∀ y : LaidExpression, y.text = s.toList →
      value? s = if ∀ n ∈ y.plain.literals, n ≤ largest then some y.plain.clamped else none) := by
  have haccepted : ∀ v, value? s = some v ↔
      ∃ x, WritesExpression x s.toList ∧ (∀ n ∈ x.literals, n ≤ largest) ∧ x.clamped = v := by
    intro v
    rw [value?_eq_some_iff]
    simp only [eq_comm]
  have hrefused : value? s = none ↔
      ¬∃ x, WritesExpression x s.toList ∧ ∀ n ∈ x.literals, n ≤ largest := by
    rw [Option.eq_none_iff_forall_ne_some]
    constructor
    · rintro h ⟨x, hx, hle⟩
      exact h x.clamped ((haccepted _).2 ⟨x, hx, hle, rfl⟩)
    · intro h v hv
      obtain ⟨x, hx, hle, -⟩ := (haccepted v).1 hv
      exact h ⟨x, hx, hle⟩
  refine ⟨haccepted, hrefused, fun x y hx hy => writesExpression_unique hx hy, fun y hy => ?_⟩
  have hwrites : WritesExpression y.plain s.toList := hy ▸ y.writes
  split
  · rename_i hle
    exact (haccepted _).2 ⟨y.plain, hwrites, hle, rfl⟩
  · rename_i hlarge
    refine hrefused.2 fun ⟨x, hx, hle⟩ => hlarge ?_
    rwa [writesExpression_unique hwrites hx]

end Headend.Config.PortExpression
