import Headend.Proofs.ExpressionGrammar
import Headend.Proofs.ResolvedStore
import Headend.Proofs.Spacing

/-!
# The port of a configuration

The value of `port_http` loses its blanks when the line is read, its names when the parameters are
resolved, and what is left is evaluated. Resolution gets past the port exactly with the value of an
expression, computed in 64 bits; any other text stops it.

Facts: `dispatch_portLine` (what the line leaves in the store), `portOf?_eq_some_iff` (the texts of
a port), `resolve_of_expression` (how resolution ends), `resolve_portLine`.
-/

namespace Headend.Config

open PortExpression

/-! ### Reading the line -/

theorem stripEnds_append {a b : List Char} (h : ∃ c ∈ b, Text.isBlank c = false) :
    stripEnds (a ++ b) = a ++ stripEnds b := by
  unfold stripEnds
  rw [List.reverse_append, List.dropWhile_append, if_neg, List.reverse_append, List.reverse_reverse]
  obtain ⟨c, hc, hblank⟩ := h
  rw [List.isEmpty_iff, List.dropWhile_eq_nil_iff]
  intro hall
  have hend := hall c (List.mem_reverse.2 hc)
  simp only [Bool.or_eq_true, beq_iff_eq] at hend
  rcases hend with rfl | rfl <;> exact absurd hblank (by decide)

/-- Dropping blanks at the front makes no difference if all blanks are dropped. -/
theorem dropBlanks_dropWhile {p : Char → Bool} (hp : ∀ c, p c = true → Text.isBlank c = true)
    (cs : List Char) : Text.dropBlanks (cs.dropWhile p) = Text.dropBlanks cs := by
  unfold Text.dropBlanks
  induction cs with
  | nil => rfl
  | cons c r ih =>
    by_cases hc : p c = true
    · rw [List.dropWhile_cons_of_pos hc, ih, List.filter_cons_of_neg (by simp [hp c hc])]
    · rw [List.dropWhile_cons_of_neg hc]

theorem dropBlanks_reverse (cs : List Char) :
    Text.dropBlanks cs.reverse = (Text.dropBlanks cs).reverse := List.filter_reverse

theorem dropBlanks_stripEnds (cs : List Char) :
    Text.dropBlanks (stripEnds cs) = Text.dropBlanks cs := by
  rw [stripEnds, dropBlanks_reverse, dropBlanks_dropWhile, dropBlanks_reverse, List.reverse_reverse]
  intro c hc
  simp only [Bool.or_eq_true, beq_iff_eq] at hc
  rcases hc with rfl | rfl <;> decide

theorem dropBlanks_trim (cs : List Char) : Text.dropBlanks (Text.trim cs) = Text.dropBlanks cs := by
  rw [Text.trim, Text.trimEnd, dropBlanks_reverse, dropBlanks_dropWhile fun _ h => h,
    dropBlanks_reverse, List.reverse_reverse, dropBlanks_dropWhile fun _ h => h]

theorem dropBlanks_ne_nil {cs : List Char} (h : ∃ c ∈ cs, Text.isBlank c = false) :
    Text.dropBlanks cs ≠ [] := by
  obtain ⟨c, hc, hblank⟩ := h
  exact List.ne_nil_of_mem (List.mem_filter.2 ⟨hc, by simp [hblank]⟩)

/-- Reading an expression drops all its blanks. -/
theorem run_expression {cs : List Char} (hcs : '=' ∉ cs)
    (hblank : ∃ c ∈ cs, Text.isBlank c = false) (site : Site) :
    expression.run site ⟨'=' :: ' ' :: cs⟩ = .ok (String.ofList (Text.dropBlanks cs)) ⟨[]⟩ := by
  have htrim : Text.dropBlanks (Text.trim (' ' :: cs)) = Text.dropBlanks cs := by
    rw [dropBlanks_trim]
    exact List.filter_cons_of_neg (by decide)
  have hne : Text.trim (' ' :: cs) ≠ [] := fun hnil =>
    dropBlanks_ne_nil hblank (by rw [← htrim, hnil]; rfl)
  have hvalue : Cursor.wholeValue ⟨'=' :: ' ' :: cs⟩ =
      (some (String.ofList (Text.trim (' ' :: cs))), ⟨[]⟩) := by
    rw [Cursor.wholeValue_equals, Cursor.wholeValue_of_no_equals (by simp [hcs]) hne]
  have hwhole : Reader.whole.run site ⟨'=' :: ' ' :: cs⟩ =
      .ok (String.ofList (Text.trim (' ' :: cs))) ⟨[]⟩ := by
    unfold Reader.run Reader.whole
    rw [hvalue]
  unfold expression
  rw [Reader.run_bind, hwhole]
  simp only [String.toList_ofList, htrim]
  rfl

/-- A store with an expression for the port. -/
def Store.withExpression (s : Store) (e : String) : Store :=
  { s with unicast.portExpression := some e }

theorem templateValues_withExpression (s : Store) (e : String) :
    (s.withExpression e).templateValues = s.templateValues := rfl

variable {d : Draft} {e : String}

/-- The line of a port sets its expression, from which all blanks have been dropped. -/
theorem dispatch_portLine (hblank : ∃ c ∈ e.toList, Text.isBlank c = false)
    (he : '=' ∉ e.toList) :
    dispatch Section.all d ("port_http = " ++ e) =
      ⟨.ok (.handled .unicast),
        { d with store := d.store.withExpression (String.ofList (Text.dropBlanks e.toList)) },
        []⟩ := by
  have hdrop := dropBlanks_stripEnds e.toList
  have hblank' : ∃ c ∈ stripEnds e.toList, Text.isBlank c = false := by
    obtain ⟨c, hc⟩ := List.exists_mem_of_ne_nil _ (hdrop ▸ dropBlanks_ne_nil hblank)
    exact ⟨c, (List.mem_filter.1 hc).1, by simpa using (List.mem_filter.1 hc).2⟩
  have he' : '=' ∉ stripEnds e.toList := by
    intro hmem
    have hrev := (List.dropWhile_sublist _).mem (List.mem_reverse.1 hmem)
    exact he (List.mem_reverse.1 hrev)
  have hline : directiveLine? (stripEnds ("port_http = " ++ e).toList) =
      some ("port_http", ⟨'=' :: ' ' :: stripEnds e.toList⟩) := by
    have htext : "port_http = ".toList = "port_http".toList ++ [' ', '=', ' '] := by simp
    rw [String.toList_append, stripEnds_append hblank, htext, List.append_assoc]
    exact directiveLine?_of_keyword (by simp) (by simp) (by simp [Cursor.isDelimiter]) (by decide)
      (by simp)
  have howner : owner? Section.all "port_http" =
      some (.unicast, unicastDirective (Reader.set expression fun v u =>
        { u with portExpression := some v })) := rfl
  have hread : ∀ site, (Reader.set expression fun v (u : Unicast) =>
      { u with portExpression := some v }).run site ⟨'=' :: ' ' :: stripEnds e.toList⟩ =
        .ok (fun u => ({ u with
          portExpression := some (String.ofList (Text.dropBlanks e.toList)) }, [])) ⟨[]⟩ := by
    intro site
    rw [Reader.set, Reader.run_bind, run_expression he' hblank', hdrop]
    rfl
  rw [dispatch_eq]
  simp only [hline, howner, unicastDirective, Directive.apply, Directive.readChange, hread]
  rfl

/-! ### The port of a text -/

/-- A text is an expression whose value, computed in 64 bits, is a port. -/
def WritesPort (text : String) (port : UInt16) : Prop :=
  ∃ x : Expression, WritesExpression x text.toList ∧ (∀ n ∈ x.literals, n ≤ Number.largest) ∧
    x.clamped = (port.toNat : Int)

theorem portOf?_eq_some_iff {text : String} {port : UInt16} :
    portOf? text = some port ↔ WritesPort text port := by
  have hvalue : portOf? text = some port ↔ value? text = some (port.toNat : Int) := by
    refine ⟨value?_of_portOf?, fun h => ?_⟩
    have hlt := port.toNat_lt
    obtain ⟨q, hq⟩ := (exists_portOf?_iff text).2 ⟨_, h, by omega, by omega⟩
    have hsame := (value?_of_portOf? hq).symm.trans h
    rw [hq, UInt16.toNat_inj.1 (Int.ofNat.inj (Option.some.inj hsame))]
  rw [hvalue, PortExpression.value?_eq_some_iff]
  exact exists_congr fun x => and_congr_right fun _ => and_congr_right fun _ => eq_comm

/-! ### Resolution -/

/-- Resolution gets past the port. -/
def Resolved.PassesPort (r : Resolved) : Prop := r.result = .ok () ∨ r.result = .error .noOutput

/-- How resolution ends with an expanded expression: at its port, or in an error about it. -/
structure PortResolved (text : String) (r : Resolved) : Prop where
  passes : ∀ port, r.PassesPort ∧ r.store.unicast.port = some port ↔ WritesPort text port
  stops : (¬ ∃ port, WritesPort text port) → r.result = .error (.badValue "port_http" text)

theorem resolve_of_expression {s : Store} (he : s.unicast.portExpression = some e) :
    PortResolved (s.templateValues.expand e) s.resolve := by
  have hexpression : (expandBefore (rulesBefore s).1).unicast.portExpression =
      some (s.templateValues.expand e) := by
    obtain ⟨_, _, _, _, _, hbefore, -⟩ := rulesBefore_fst s
    rw [hbefore]
    change s.unicast.portExpression.map _ = _
    rw [he]
    rfl
  generalize htext : s.templateValues.expand e = text at hexpression ⊢
  cases hport : portOf? text with
  | none =>
    have hnone : ¬ ∃ port, WritesPort text port := by
      rintro ⟨port, hp⟩
      rw [portOf?_eq_some_iff.2 hp] at hport
      cases hport
    have hresult : s.resolve.result = .error (.badValue "port_http" text) := by
      rw [resolve_eq, evaluatePort, hexpression]
      simp only [hport]
    refine ⟨fun port => ⟨fun hp => ?_, fun hp => absurd ⟨port, hp⟩ hnone⟩, fun _ => hresult⟩
    rcases hp.1 with h | h <;> (rw [hresult] at h; cases h)
  | some q =>
    obtain ⟨t, ht⟩ : ∃ t, evaluatePort (expandBefore (rulesBefore s).1) = .ok t := by
      rw [evaluatePort, hexpression]
      simp only [hport]
      exact ⟨_, rfl⟩
    have hpasses : s.resolve.PassesPort := by
      unfold Resolved.PassesPort
      rw [(resolve_of_port ht).2]
      split
      · exact .inl rfl
      · exact .inr rfl
    have hkept : s.resolve.store.unicast.portExpression = some text := by
      have hrest := congrArg (·.unicast.portExpression) (respects_resolve ht).rest
      rw [← htext]
      exact hrest.trans (congrArg (Option.map s.templateValues.expand) he)
    have hset : s.resolve.store.unicast.port = some q :=
      (evaluatePort_eq_self (settled_resolve ht).port hkept).trans hport
    refine ⟨fun port => ?_, fun hnone => absurd ⟨q, portOf?_eq_some_iff.1 hport⟩ hnone⟩
    rw [← portOf?_eq_some_iff, hport, hset]
    exact and_iff_right hpasses

/-- The text that a value of `port_http` stands for, in a store with the numbers that it may name:
the value without its blanks, and with every name replaced. -/
def portText (s : Store) (value : String) : String :=
  s.templateValues.expand (String.ofList (Text.dropBlanks value.toList))

/-- The line of a port is taken, and resolution then gets past the port exactly with the value of
the text that it stands for, if this is an expression with a port for its value. Where no step of
the expression leaves the range of 64 bits, its value is the exact one. -/
theorem resolve_portLine (d : Draft) (value : String)
    (hblank : ∃ c ∈ value.toList, Text.isBlank c = false) (hequals : '=' ∉ value.toList) :
    let done := dispatch Section.all d ("port_http = " ++ value)
    done.outcome = .ok (.handled .unicast) ∧
      PortResolved (portText d.store value) done.draft.store.resolve ∧
      ∀ x, WritesExpression x (portText d.store value).toList → x.Fits → x.clamped = x.exact := by
  dsimp only
  rw [dispatch_portLine hblank hequals]
  have hresolved := resolve_of_expression
    (s := d.store.withExpression (String.ofList (Text.dropBlanks value.toList))) rfl
  rw [templateValues_withExpression] at hresolved
  exact ⟨rfl, hresolved, fun x _ hx => Expression.clamped_eq_exact hx⟩

theorem resolve_portLine_named :
    let d : Draft := { store := { tuning := { card := some 2 } } }
    let done := dispatch Section.all d "port_http = 4000 + 10 * %card"
    done.outcome = .ok (.handled .unicast) ∧
      PortResolved (portText d.store "4000 + 10 * %card") done.draft.store.resolve ∧
      ∀ x, WritesExpression x (portText d.store "4000 + 10 * %card").toList → x.Fits →
        x.clamped = x.exact := by
  have hline : "port_http = 4000 + 10 * %card" = "port_http = " ++ "4000 + 10 * %card" := rfl
  rw [hline]
  exact resolve_portLine { store := { tuning := { card := some 2 } } } "4000 + 10 * %card"
    ⟨'4', by simp, by decide⟩ (by simp)

/-- The port is the exact value of the text as it is written, with every name replaced. -/
def PortIsExact (d : Draft) (value : String) : Prop :=
  let r := (dispatch Section.all d ("port_http = " ++ value)).draft.store.resolve
  ∀ port, r.PassesPort ∧ r.store.unicast.port = some port ↔
    ∃ x, WritesExpression x (d.store.templateValues.expand value).toList ∧
      x.exact = (port.toNat : Int)

/-- Blanks inside a literal join its parts, and a step beyond 64 bits is cut short. -/
theorem not_portIsExact :
    ¬ PortIsExact {} "80 80" ∧
      ¬ PortIsExact {} "9223372036854775807+1-9223372036854775000" := by
  constructor
  · intro h
    unfold PortIsExact at h
    rw [dispatch_portLine ⟨'8', by simp, by decide⟩ (by simp)] at h
    obtain ⟨x, hx, -⟩ := (h 8080).1 ⟨.inl (by decide +kernel), by decide +kernel⟩
    exact not_writesExpression_of_short (by decide +kernel) (by decide +kernel) x hx
  · intro h
    unfold PortIsExact at h
    rw [dispatch_portLine ⟨'9', by simp, by decide⟩ (by simp)] at h
    have hliteral : ∀ digits : List Char, digits ≠ [] → (∀ c ∈ digits, c.isDigit = true) →
        WritesNumber (Number.natural digits) ([] ++ (digits ++ [])) :=
      fun _ hne hdigits => .intro (List.forall_mem_nil _) hne hdigits (List.forall_mem_nil _)
    have hx := WritesExpression.intro
      (.intro (hliteral "9223372036854775807".toList (by simp) (by simp)) .nil)
      (.cons .plus (.intro (hliteral "1".toList (by simp) (by simp)) .nil)
        (.cons .minus
          (.intro (hliteral "9223372036854775000".toList (by simp) (by simp)) .nil)
          .nil))
    simp only [List.nil_append, List.append_nil] at hx
    have htext : (({} : Draft).store.templateValues.expand
          "9223372036854775807+1-9223372036854775000").toList =
        "9223372036854775807".toList ++ Operator.plus.sign :: ("1".toList ++
          Operator.minus.sign :: "9223372036854775000".toList) := by decide +kernel
    rw [← htext] at hx
    have hport := (h 808).2 ⟨_, hx, by decide +kernel⟩
    exact absurd hport.2 (by decide +kernel)

end Headend.Config
