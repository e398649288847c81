import Headend.Config.PortExpression
import Headend.Proofs.Decimals
import Mathlib.Algebra.Ring.Nat

/-!
# The grammar of port expressions

An expression is a sum of products of literals. The evaluator accepts exactly the texts that are
written so, with blanks around each literal, and its value is the one of the syntax tree when every
step is clamped to 64 bits. If no step leaves that range this is the exact value.

Facts: `number_sound` and `number_complete`, likewise for factors, products and terms,
`value?_eq_some_iff` (what the evaluator accepts, and with which value), `clamped_eq_exact` (when
the clamping does nothing), `not_writesExpression_of_short` (a short text is refused only for its
shape).
-/

namespace Headend.Config.PortExpression

open Headend.Number (isSpace not_isSpace_of_isDigit digitValue digitValue_lt_ten natural largest
  least)

/-! ### Syntax -/

/-- An operator between two products. -/
inductive Operator where
  | plus | minus
deriving DecidableEq

/-- The character of an operator. -/
def Operator.sign : Operator → Char
  | plus => '+'
  | minus => '-'

/-- What an operator does to two values. -/
def Operator.apply : Operator → Int → Int → Int
  | plus, v, w => v + w
  | minus, v, w => v - w

/-- A literal and those it is multiplied by. -/
structure Product where
  first : Nat
  others : List Nat

/-- A product and those that are added to it or taken from it. -/
structure Expression where
  first : Product
  others : List (Operator × Product)

/-- The literals of a product. -/
def Product.literals (p : Product) : List Nat := p.first :: p.others

/-- The literals of a sum. -/
def Expression.literals (x : Expression) : List Nat :=
  x.first.literals ++ x.others.flatMap fun t => t.2.literals

/-! ### Texts -/

/-- The texts of a literal: digits, with blanks around them. -/
inductive WritesNumber : Nat → List Char → Prop
  | intro {before digits after : List Char} (hbefore : ∀ c ∈ before, isSpace c = true)
      (hne : digits ≠ []) (hdigits : ∀ c ∈ digits, c.isDigit = true)
      (hafter : ∀ c ∈ after, isSpace c = true) :
      WritesNumber (natural digits) (before ++ (digits ++ after))

/-- The texts of literals, each after a `*`. -/
inductive WritesFactors : List Nat → List Char → Prop
  | nil : WritesFactors [] []
  | cons {n ns t r} (hn : WritesNumber n t) (hns : WritesFactors ns r) :
      WritesFactors (n :: ns) ('*' :: (t ++ r))

/-- The texts of a product. -/
inductive WritesProduct : Product → List Char → Prop
  | intro {n ns t r} (hn : WritesNumber n t) (hns : WritesFactors ns r) :
      WritesProduct ⟨n, ns⟩ (t ++ r)

/-- The texts of products, each after its operator. -/
inductive WritesTerms : List (Operator × Product) → List Char → Prop
  | nil : WritesTerms [] []
  | cons (op : Operator) {p ps t r} (hp : WritesProduct p t) (hps : WritesTerms ps r) :
      WritesTerms ((op, p) :: ps) (op.sign :: (t ++ r))

/-- The texts of a sum. -/
inductive WritesExpression : Expression → List Char → Prop
  | intro {p ps t r} (hp : WritesProduct p t) (hps : WritesTerms ps r) :
      WritesExpression ⟨p, ps⟩ (t ++ r)

/-! ### Values -/

/-- The exact value of a product. -/
def Product.exact (p : Product) : Int := p.others.foldl (fun (v : Int) (n : Nat) => v * n) p.first

/-- The value of a product with each step clamped. -/
def Product.clamped (p : Product) : Int :=
  p.others.foldl (fun (v : Int) (n : Nat) => clamp (v * n)) p.first

/-- The exact value of a sum. -/
def Expression.exact (x : Expression) : Int :=
  x.others.foldl (fun v t => t.1.apply v t.2.exact) x.first.exact

/-- The value of a sum with each step clamped. -/
def Expression.clamped (x : Expression) : Int :=
  x.others.foldl (fun v t => clamp (t.1.apply v t.2.clamped)) x.first.clamped

/-- Every value that comes up, one step after the other, can be held by 64 bits with sign. -/
def Bounded (step : Int → α → Int) : Int → List α → Prop
  | _, [] => True
  | v, a :: l => (least ≤ step v a ∧ step v a ≤ largest) ∧ Bounded step (step v a) l

/-- No step of a product leaves the range of 64 bits. -/
def Product.Fits (p : Product) : Prop := Bounded (fun v (n : Nat) => v * n) p.first p.others

/-- No step of a sum, or of its products, leaves the range of 64 bits. -/
structure Expression.Fits (x : Expression) : Prop where
  first : x.first.Fits
  others : ∀ t ∈ x.others, t.2.Fits
  steps : Bounded (fun v t => t.1.apply v t.2.exact) x.first.exact x.others

theorem clamp_of_bounds {n : Int} (h : least ≤ n ∧ n ≤ largest) : clamp n = n := by
  unfold clamp
  omega

theorem foldl_clamp {step : Int → α → Int} {l : List α} {v : Int} (h : Bounded step v l) :
    l.foldl (fun v a => clamp (step v a)) v = l.foldl step v := by
  induction l generalizing v with
  | nil => rfl
  | cons a l ih =>
    rw [List.foldl_cons, List.foldl_cons, clamp_of_bounds h.1]
    exact ih h.2

theorem Product.clamped_eq_exact {p : Product} (h : p.Fits) : p.clamped = p.exact := foldl_clamp h

/-- Where no step leaves the range of 64 bits the clamping does nothing. -/
theorem Expression.clamped_eq_exact {x : Expression} (h : x.Fits) : x.clamped = x.exact := by
  unfold clamped exact
  rw [Product.clamped_eq_exact h.first, ← foldl_clamp h.steps]
  refine List.foldl_ext _ _ _ fun v t ht => ?_
  rw [Product.clamped_eq_exact (h.others t ht)]

/-! ### Literals -/

/-- The text is at its end, or goes on with what cannot belong to a literal. -/
def Stops (r : List Char) : Prop :=
  ∀ c, r.head? = some c → c.isDigit = false ∧ isSpace c = false

theorem stops_nil : Stops [] := by
  intro c hc
  cases hc

theorem stops_times (r : List Char) : Stops ('*' :: r) := by
  intro c hc
  cases hc
  decide

theorem stops_sign (op : Operator) (r : List Char) : Stops (op.sign :: r) := by
  intro c hc
  cases hc
  cases op <;> decide

theorem dropWhile_append_of_stop {p : Char → Bool} {l r : List Char} (hl : ∀ c ∈ l, p c = true)
    (hr : ∀ c, r.head? = some c → p c = false) : (l ++ r).dropWhile p = r := by
  rw [List.dropWhile_append_of_pos hl]
  cases r with
  | nil => rfl
  | cons c r => exact List.dropWhile_cons_of_neg (by simp [hr c rfl])

theorem takeWhile_append_of_stop {p : Char → Bool} {l r : List Char} (hl : ∀ c ∈ l, p c = true)
    (hr : ∀ c, r.head? = some c → p c = false) : (l ++ r).takeWhile p = l := by
  rw [List.takeWhile_append_of_pos hl]
  cases r with
  | nil => simp
  | cons c r => rw [List.takeWhile_cons_of_neg (by simp [hr c rfl]), List.append_nil]

theorem number_sound {cs r : List Char} {v : Int} (h : number cs = some (v, r)) :
    ∃ n t, cs = t ++ r ∧ WritesNumber n t ∧ n ≤ largest ∧ v = n := by
  unfold number at h
  dsimp only at h
  split at h
  · cases h
  · rename_i hok
    obtain ⟨rfl, rfl⟩ := Prod.mk.inj (Option.some.inj h)
    simp only [Bool.or_eq_true, List.isEmpty_iff, decide_eq_true_eq, not_or, Nat.not_lt] at hok
    generalize hrest : cs.dropWhile isSpace = rest at hok ⊢
    generalize hend : rest.dropWhile Char.isDigit = tail
    refine ⟨_, cs.takeWhile isSpace ++ (rest.takeWhile Char.isDigit ++ tail.takeWhile isSpace), ?_,
      .intro (fun c hc => List.mem_takeWhile_imp hc) hok.1
        (fun c hc => List.mem_takeWhile_imp hc) fun c hc => List.mem_takeWhile_imp hc,
      hok.2, rfl⟩
    rw [List.append_assoc, List.append_assoc, List.takeWhile_append_dropWhile, ← hend,
      List.takeWhile_append_dropWhile, ← hrest, List.takeWhile_append_dropWhile]

/-- A literal is cut off a text that goes on with what cannot belong to it: its digits are read, and
the rest is left. -/
theorem cut_writesNumber {n : Nat} {t r : List Char} (h : WritesNumber n t) (hr : Stops r) :
    ((t ++ r).dropWhile isSpace).takeWhile Char.isDigit ≠ [] ∧
      natural (((t ++ r).dropWhile isSpace).takeWhile Char.isDigit) = n ∧
      (((t ++ r).dropWhile isSpace).dropWhile Char.isDigit).dropWhile isSpace = r := by
  obtain ⟨hbefore, hne, hdigits, hafter⟩ := h
  rename_i before digits after
  have hend : ∀ c, (after ++ r).head? = some c → c.isDigit = false := by
    intro c hc
    cases after with
    | nil => exact (hr c hc).1
    | cons a l =>
      cases hc
      by_contra hd
      have hs := not_isSpace_of_isDigit (by simpa using hd)
      rw [hafter _ List.mem_cons_self] at hs
      cases hs
  have hstart : ∀ c, (digits ++ (after ++ r)).head? = some c → isSpace c = false := by
    intro c hc
    cases digits with
    | nil => exact absurd rfl hne
    | cons d l =>
      cases hc
      exact not_isSpace_of_isDigit (hdigits _ List.mem_cons_self)
  rw [List.append_assoc, List.append_assoc, dropWhile_append_of_stop hbefore hstart,
    takeWhile_append_of_stop hdigits hend, dropWhile_append_of_stop hdigits hend,
    dropWhile_append_of_stop hafter fun c hc => (hr c hc).2]
  exact ⟨hne, rfl, rfl⟩

theorem number_complete {n : Nat} {t r : List Char} (h : WritesNumber n t) (hn : n ≤ largest)
    (hr : Stops r) : number (t ++ r) = some (↑n, r) := by
  obtain ⟨hne, hvalue, hrest⟩ := cut_writesNumber h hr
  unfold number
  dsimp only
  rw [hvalue, hrest, if_neg]
  simp only [Bool.or_eq_true, List.isEmpty_iff, hne, decide_eq_true_eq, false_or, Nat.not_lt]
  exact hn

/-! ### Factors and products -/

theorem stops_factors {ns : List Nat} {t r : List Char} (h : WritesFactors ns t) (hr : Stops r) :
    Stops (t ++ r) := by
  cases h with
  | nil => exact hr
  | cons hn hns => exact stops_times _

theorem factors_sound {rounds : Nat} {v w : Int} {cs r : List Char}
    (h : factors rounds v cs = (w, r)) :
    ∃ ns t, cs = t ++ r ∧ WritesFactors ns t ∧ (∀ n ∈ ns, n ≤ largest) ∧
      w = ns.foldl (fun (v : Int) (n : Nat) => clamp (v * n)) v := by
  fun_induction factors rounds v cs with
  | case1 rounds v cs m rest hm ih =>
    obtain ⟨n, t, rfl, hn, hle, rfl⟩ := number_sound hm
    obtain ⟨ns, t', rfl, hns, hall, rfl⟩ := ih h
    refine ⟨n :: ns, '*' :: (t ++ t'), by simp, .cons hn hns, ?_, rfl⟩
    exact List.forall_mem_cons.2 ⟨hle, hall⟩
  | case2 rounds v cs hm =>
    cases h
    exact ⟨[], [], rfl, .nil, List.forall_mem_nil _, rfl⟩
  | case3 rounds v cs =>
    cases h
    exact ⟨[], [], rfl, .nil, List.forall_mem_nil _, rfl⟩

/-- The factors end before what is not a `*`. -/
theorem factors_of_stop {rounds : Nat} {v : Int} {r : List Char} (hr : r.head? ≠ some '*') :
    factors rounds v r = (v, r) := by
  unfold factors
  split
  · exact absurd rfl hr
  · rfl

theorem factors_complete {ns : List Nat} {t : List Char} (h : WritesFactors ns t)
    (hle : ∀ n ∈ ns, n ≤ largest) {r : List Char} (hr : Stops r) (hr' : r.head? ≠ some '*') :
    ∀ (rounds : Nat) (v : Int), t.length ≤ rounds → factors rounds v (t ++ r) =
      (ns.foldl (fun (v : Int) (n : Nat) => clamp (v * n)) v, r) := by
  induction h with
  | nil => exact fun rounds v _ => factors_of_stop hr'
  | @cons n ns t t' hn hns ih =>
    obtain ⟨hfirst, hothers⟩ := List.forall_mem_cons.1 hle
    intro rounds v hrounds
    rw [List.length_cons, List.length_append] at hrounds
    obtain ⟨rounds, rfl⟩ : ∃ k, rounds = k + 1 := ⟨rounds - 1, by omega⟩
    rw [List.cons_append, List.append_assoc, factors,
      number_complete hn hfirst (stops_factors hns hr)]
    exact ih hothers rounds _ (by omega)

theorem product_sound {cs r : List Char} {v : Int} (h : product cs = some (v, r)) :
    ∃ p t, cs = t ++ r ∧ WritesProduct p t ∧ (∀ n ∈ p.literals, n ≤ largest) ∧ v = p.clamped := by
  obtain ⟨⟨m, rest⟩, hm, hf⟩ := Option.map_eq_some_iff.1 h
  obtain ⟨n, t, rfl, hn, hle, rfl⟩ := number_sound hm
  obtain ⟨ns, t', rfl, hns, hall, rfl⟩ := factors_sound hf
  refine ⟨⟨n, ns⟩, t ++ t', by simp, .intro hn hns, ?_, rfl⟩
  exact List.forall_mem_cons.2 ⟨hle, hall⟩

theorem product_complete {p : Product} {t r : List Char} (h : WritesProduct p t)
    (hle : ∀ n ∈ p.literals, n ≤ largest) (hr : Stops r) (hr' : r.head? ≠ some '*') :
    product (t ++ r) = some (p.clamped, r) := by
  obtain ⟨hn, hns⟩ := h
  obtain ⟨hfirst, hothers⟩ := List.forall_mem_cons.1 hle
  rw [product, List.append_assoc, number_complete hn hfirst (stops_factors hns hr),
    Option.map_some]
  dsimp only
  rw [factors_complete hns hothers hr hr' _ _ (by simp)]
  rfl

/-! ### Terms and sums -/

theorem sign_ne_times (op : Operator) : op.sign ≠ '*' := by
  cases op <;> decide

theorem stops_terms {ps : List (Operator × Product)} {t : List Char} (h : WritesTerms ps t) :
    Stops t ∧ t.head? ≠ some '*' := by
  cases h with
  | nil => exact ⟨stops_nil, by simp⟩
  | cons hp hps => exact ⟨stops_sign _ _, by simpa using sign_ne_times _⟩

theorem terms_sound {rounds : Nat} {v w : Int} {cs r : List Char}
    (h : terms rounds v cs = (w, r)) :
    ∃ ps t, cs = t ++ r ∧ WritesTerms ps t ∧ (∀ q ∈ ps, ∀ n ∈ q.2.literals, n ≤ largest) ∧
      w = ps.foldl (fun v q => clamp (q.1.apply v q.2.clamped)) v := by
  fun_induction terms rounds v cs with
  | case1 rounds v cs m rest hm ih =>
    obtain ⟨p, t, rfl, hp, hle, rfl⟩ := product_sound hm
    obtain ⟨ps, t', rfl, hps, hall, rfl⟩ := ih h
    refine ⟨(.plus, p) :: ps, '+' :: (t ++ t'), by simp, .cons .plus hp hps, ?_, rfl⟩
    exact List.forall_mem_cons.2 ⟨hle, hall⟩
  | case3 rounds v cs m rest hm ih =>
    obtain ⟨p, t, rfl, hp, hle, rfl⟩ := product_sound hm
    obtain ⟨ps, t', rfl, hps, hall, rfl⟩ := ih h
    refine ⟨(.minus, p) :: ps, '-' :: (t ++ t'), by simp, .cons .minus hp hps, ?_, rfl⟩
    exact List.forall_mem_cons.2 ⟨hle, hall⟩
  | case2 | case4 | case5 =>
    cases h
    exact ⟨[], [], rfl, .nil, List.forall_mem_nil _, rfl⟩

theorem terms_sign {rounds : Nat} {v n : Int} (op : Operator) {cs r : List Char}
    (h : product cs = some (n, r)) :
    terms (rounds + 1) v (op.sign :: cs) = terms rounds (clamp (op.apply v n)) r := by
  cases op with
  | plus => rw [Operator.sign, terms, h]; rfl
  | minus => rw [Operator.sign, terms, h]; rfl

theorem terms_complete {ps : List (Operator × Product)} {t : List Char} (h : WritesTerms ps t)
    (hle : ∀ q ∈ ps, ∀ n ∈ q.2.literals, n ≤ largest) :
    ∀ (rounds : Nat) (v : Int), t.length ≤ rounds → terms rounds v t =
      (ps.foldl (fun v q => clamp (q.1.apply v q.2.clamped)) v, []) := by
  induction h with
  | nil =>
    intro rounds v _
    cases rounds <;> rfl
  | @cons op p ps t t' hp hps ih =>
    obtain ⟨hfirst, hothers⟩ := List.forall_mem_cons.1 hle
    intro rounds v hrounds
    rw [List.length_cons, List.length_append] at hrounds
    obtain ⟨rounds, rfl⟩ : ∃ k, rounds = k + 1 := ⟨rounds - 1, by omega⟩
    obtain ⟨hstop, htimes⟩ := stops_terms hps
    rw [terms_sign op (product_complete hp hfirst hstop htimes)]
    exact ih hothers rounds _ (by omega)

theorem literals_le_iff {p : Product} {ps : List (Operator × Product)} :
    (∀ n ∈ (Expression.mk p ps).literals, n ≤ largest) ↔
      (∀ n ∈ p.literals, n ≤ largest) ∧ ∀ q ∈ ps, ∀ n ∈ q.2.literals, n ≤ largest := by
  simp only [Expression.literals, List.forall_mem_append, List.forall_mem_flatMap]

/-- The evaluator accepts the texts of sums whose literals fit in 64 bits, and its value is the one
of the syntax tree with each step clamped. -/
theorem value?_eq_some_iff {s : String} {v : Int} :
    value? s = some v ↔
      ∃ x : Expression, WritesExpression x s.toList ∧ (∀ n ∈ x.literals, n ≤ largest) ∧
      v = x.clamped := by
  unfold value?
  constructor
  · intro h
    split at h
    · rename_i m rest hm
      split at h
      · rename_i w hw
        cases h
        obtain ⟨p, t, hs, hp, hle, rfl⟩ := product_sound hm
        obtain ⟨ps, t', rfl, hps, hall, rfl⟩ := terms_sound hw
        rw [List.append_nil] at hs
        exact ⟨⟨p, ps⟩, hs ▸ .intro hp hps, literals_le_iff.2 ⟨hle, hall⟩, rfl⟩
      · cases h
    · cases h
  · rintro ⟨⟨p, ps⟩, hx, hle, rfl⟩
    obtain ⟨hfirst, hothers⟩ := literals_le_iff.1 hle
    generalize s.toList = cs at hx
    obtain ⟨hp, hps⟩ := hx
    obtain ⟨hstop, htimes⟩ := stops_terms hps
    rw [product_complete hp hfirst hstop htimes]
    dsimp only
    rw [terms_complete hps hothers _ _ (Nat.le_refl _)]
    rfl

/-! ### Short texts -/

theorem natural_lt {digits : List Char} (h : ∀ c ∈ digits, c.isDigit = true) :
    natural digits < 10 ^ digits.length := by
  suffices hm : ∀ m, digits.foldl (fun m c => m * 10 + digitValue c) m <
      (m + 1) * 10 ^ digits.length by
    simpa [natural] using hm 0
  induction digits with
  | nil => simp
  | cons c r ih =>
    intro m
    obtain ⟨hc, hr⟩ := List.forall_mem_cons.1 h
    have hdigit : digitValue c < 10 := digitValue_lt_ten hc
    calc r.foldl (fun m c => m * 10 + digitValue c) (m * 10 + digitValue c)
        < (m * 10 + digitValue c + 1) * 10 ^ r.length := ih hr _
      _ ≤ ((m + 1) * 10) * 10 ^ r.length := Nat.mul_le_mul_right _ (by omega)
      _ = (m + 1) * 10 ^ (c :: r).length := by
        rw [List.length_cons, Nat.pow_succ, Nat.mul_assoc, Nat.mul_comm 10]

section

variable {bound : Nat}

theorem lt_of_writesNumber {n : Nat} {t : List Char} (h : WritesNumber n t)
    (ht : t.length ≤ bound) : n < 10 ^ bound := by
  obtain ⟨-, -, hdigits, -⟩ := h
  simp only [List.length_append] at ht
  exact Nat.lt_of_lt_of_le (natural_lt hdigits) (Nat.pow_le_pow_right (by decide) (by omega))

theorem lt_of_writesFactors {ns : List Nat} {t : List Char} (h : WritesFactors ns t)
    (ht : t.length ≤ bound) : ∀ n ∈ ns, n < 10 ^ bound := by
  induction h with
  | nil => exact List.forall_mem_nil _
  | cons hn hns ih =>
    simp only [List.length_cons, List.length_append] at ht
    exact List.forall_mem_cons.2 ⟨lt_of_writesNumber hn (by omega), ih (by omega)⟩

theorem lt_of_writesProduct {p : Product} {t : List Char} (h : WritesProduct p t)
    (ht : t.length ≤ bound) : ∀ n ∈ p.literals, n < 10 ^ bound := by
  obtain ⟨hn, hns⟩ := h
  rw [List.length_append] at ht
  exact List.forall_mem_cons.2
    ⟨lt_of_writesNumber hn (by omega), lt_of_writesFactors hns (by omega)⟩

theorem lt_of_writesTerms {ps : List (Operator × Product)} {t : List Char} (h : WritesTerms ps t)
    (ht : t.length ≤ bound) : ∀ q ∈ ps, ∀ n ∈ q.2.literals, n < 10 ^ bound := by
  induction h with
  | nil => exact List.forall_mem_nil _
  | cons _ hp hps ih =>
    simp only [List.length_cons, List.length_append] at ht
    exact List.forall_mem_cons.2 ⟨lt_of_writesProduct hp (by omega), ih (by omega)⟩

end

/-- A text of at most eighteen characters has no literal beyond 64 bits, so the evaluator refuses
it only if it is no expression. -/
theorem not_writesExpression_of_short {s : String} (hs : s.toList.length ≤ 18) (h : value? s = none)
    (x : Expression) : ¬ WritesExpression x s.toList := by
  intro hx
  have hle : ∀ n ∈ x.literals, n ≤ largest := by
    generalize s.toList = cs at hs hx
    obtain ⟨hp, hps⟩ := hx
    rw [List.length_append] at hs
    have hbound : 10 ^ 18 ≤ largest := by decide
    refine literals_le_iff.2 ⟨fun n hn => ?_, fun q hq n hn => ?_⟩
    · have hlt : n < 10 ^ 18 := lt_of_writesProduct hp (by omega) n hn
      omega
    · have hlt : n < 10 ^ 18 := lt_of_writesTerms hps (by omega) q hq n hn
      omega
  rw [value?_eq_some_iff.2 ⟨x, hx, hle, rfl⟩] at h
  cases h

end Headend.Config.PortExpression
