import Headend.CommandLine.Options
import Headend.Proofs.HttpPort
import Headend.Proofs.PlainValues

/-!
# Options as lines

An option of the command line that gives a parameter can be written as a line of the configuration.
Such a line sets the parameter to what is read of it, and this is the value of the option but for
one: the least integer of 64 bits as the server's number, whose magnitude is beyond what a line can
hold. So a configuration with the options added behind it, in any order, leaves the store in which
the options stand above the configuration, unless the server's number is that one.

Facts: `expanded_resolve` (what is written into templates), `dispatch_line` (the line of an option),
`applyAll_assignments` and `applyAll_perm` (the options one after the other, in any order),
`parse_options` (the options behind a configuration), `likeOptions_lines`.
-/

namespace Headend.Config

/-! ### Templates -/

/-- Templates of a store are expanded with given values: those before the port in any case, those
after it if resolution gets past the port. -/
structure Expanded (v : TemplateValues) (s : Store) (r : Resolved) : Prop where
  devicePath : r.store.tuning.cardDevPath = v.expand s.tuning.cardDevPath
  portExpression : r.store.unicast.portExpression = s.unicast.portExpression.map v.expand
  logFile : r.PassesPort → r.store.logging.file = s.logging.file.map v.expand
  pidFile : r.PassesPort → r.store.options.pidFile = v.expand s.options.pidFile

theorem expanded_resolve (s : Store) : Expanded s.templateValues s s.resolve := by
  cases hport : evaluatePort (expandBefore (rulesBefore s).1) with
  | ok t =>
    have hrest := (respects_resolve hport).rest
    exact ⟨congrArg (·.tuning.cardDevPath) hrest, congrArg (·.unicast.portExpression) hrest,
      fun _ => congrArg (·.logging.file) hrest, fun _ => congrArg (·.options.pidFile) hrest⟩
  | error e =>
    -- What is expanded after the port is left as it is, and nothing is said of it.
    have hstops : ¬s.resolve.PassesPort := by
      intro hpasses
      obtain ⟨t, ht⟩ := exists_port_of_result hpasses
      rw [hport] at ht
      cases ht
    have hstore : s.resolve.store = expandBefore (rulesBefore s).1 := by
      rw [resolve_eq, hport]
    obtain ⟨_, _, _, _, _, hbefore, -⟩ := rulesBefore_fst s
    rw [hbefore] at hstore
    exact ⟨congrArg (·.tuning.cardDevPath) hstore, congrArg (·.unicast.portExpression) hstore,
      fun h => absurd h hstops, fun h => absurd h hstops⟩

end Headend.Config

namespace Headend.CommandLine

open Headend.Config
open Headend.Number (largest least)
open Headend.Text (Octets octets)

/-! ### Assignments -/

/-- A parameter that an option gives, with its value. -/
inductive Assignment where
  | card (n : UInt32)
  | tuner (n : UInt32)
  | srate (n : UInt32)
  | tuningTimeout (n : UInt32)
  | serverId (n : Int)
  | pol (p : Polarization)
  | deliverySystem (d : DeliverySystem)
deriving DecidableEq

namespace Assignment

/-- The keyword of the parameter. -/
def keyword : Assignment → String
  | card _ => "card"
  | tuner _ => "tuner"
  | srate _ => "srate"
  | tuningTimeout _ => "tuning_timeout"
  | serverId _ => "server_id"
  | pol _ => "pol"
  | deliverySystem _ => "delivery_system"

/-- The keywords of all parameters. -/
def keywords : List String :=
  ["card", "tuner", "srate", "tuning_timeout", "server_id", "pol", "delivery_system"]

theorem keyword_mem (a : Assignment) : a.keyword ∈ keywords := by
  cases a <;> simp [keyword, keywords]

/-- The value as it is written: a number in decimal form, a letter or a name. -/
def value : Assignment → String
  | card n | tuner n | srate n | tuningTimeout n => toString n.toNat
  | serverId n => toString n
  | pol p => p.letter
  | deliverySystem d => d.name

/-- The line of the configuration that gives the value. -/
def line (a : Assignment) : String := assignment a.keyword a.value

/-- Gives the value to the parameter. -/
def apply (a : Assignment) (s : Store) : Store :=
  match a with
  | card n => { s with tuning.card := some n }
  | tuner n => { s with tuning.tuner := n }
  | srate n => { s with tuning.srate := n }
  | tuningTimeout n => { s with tuning.tuningTimeout := n }
  | serverId n => { s with options.serverId := n }
  | pol p => { s with tuning.pol := some p }
  | deliverySystem d => { s with tuning.deliverySystem := some d }

/-- Gives the values one after the other. -/
def applyAll (as : List Assignment) (s : Store) : Store := as.foldl (fun s a => a.apply s) s

/-- The assignment as it is read from its line. -/
def asRead : Assignment → Assignment
  | serverId n => serverId (max (-(largest : Int)) (min largest n))
  | a => a

/-- A server's number that 64 bits with sign can hold. -/
def Fits : Assignment → Prop
  | serverId n => least ≤ n ∧ n ≤ largest
  | _ => True

end Assignment

namespace Options

/-- The assignments of the options. -/
def assignments (o : Options) : List Assignment :=
  o.card.toList.map .card ++ o.tuner.toList.map .tuner ++ o.srate.toList.map .srate ++
    o.tuningTimeout.toList.map .tuningTimeout ++ o.serverId.toList.map .serverId ++
    o.pol.toList.map .pol ++ o.deliverySystem.toList.map .deliverySystem

/-- The options as they are read from their lines. -/
def asRead (o : Options) : Options :=
  { o with serverId := o.serverId.map fun n => max (-(largest : Int)) (min largest n) }

end Options

/-! ### The line of an option -/

namespace Assignment

theorem isPlain_value (a : Assignment) : IsPlain a.value := by
  cases a with
  | card n => exact isPlain_toString n.toNat
  | tuner n => exact isPlain_toString n.toNat
  | srate n => exact isPlain_toString n.toNat
  | tuningTimeout n => exact isPlain_toString n.toNat
  | serverId n => exact isPlain_toString n
  | pol p => cases p <;> exact isPlain_of_all (by decide) (by decide)
  | deliverySystem d => cases d <;> exact isPlain_of_all (by decide) (by decide)

/-- The line of an option sets what is read of its value. -/
theorem dispatch_line (a : Assignment) (d : Draft) :
    ∃ s, dispatch Section.all d a.line =
      ⟨.ok (.handled s), { d with store := a.asRead.apply d.store }, []⟩ := by
  have hplain := a.isPlain_value
  cases a with
  | card n =>
    exact ⟨.tuning, dispatch_set (p := .tuning) (fun v t => { t with card := some v }) rfl
      Reader.tokenwise_uint hplain (uint_toString n) d⟩
  | tuner n =>
    exact ⟨.tuning, dispatch_set (p := .tuning) (fun v t => { t with tuner := v }) rfl
      Reader.tokenwise_uint hplain (uint_toString n) d⟩
  | srate n =>
    exact ⟨.tuning, dispatch_set (p := .tuning) (fun v t => { t with srate := v }) rfl
      Reader.tokenwise_uint hplain (uint_toString n) d⟩
  | tuningTimeout n =>
    exact ⟨.tuning, dispatch_set (p := .tuning) (fun v t => { t with tuningTimeout := v }) rfl
      Reader.tokenwise_uint hplain (uint_toString n) d⟩
  | serverId n =>
    exact ⟨.main, dispatch_set (p := .options) (fun v t => { t with serverId := v }) rfl
      Reader.tokenwise_int hplain (int_toString n) d⟩
  | pol x =>
    exact ⟨.tuning, dispatch_set (p := .tuning) (fun v t => { t with pol := some v }) rfl
      (Reader.tokenwise_named _) hplain (named_of_isPlain hplain (Polarization.ofName?_letter x)) d⟩
  | deliverySystem x =>
    exact ⟨.tuning, dispatch_set (p := .tuning) (fun v t => { t with deliverySystem := some v }) rfl
      (Reader.tokenwise_named _) hplain (named_of_isPlain hplain (DeliverySystem.ofName?_name x)) d⟩

theorem accepts_line (a : Assignment) (d : Draft) :
    Accepts Section.all a.line d { d with store := a.asRead.apply d.store } := by
  obtain ⟨s, hline⟩ := a.dispatch_line d
  rw [Accepts, hline]
  exact ⟨⟨_, rfl⟩, rfl⟩

theorem length_value (a : Assignment) (ha : a.Fits) : a.value.length ≤ 20 := by
  have hnat : ∀ n : Nat, n < 10 ^ 19 → (toString n).length ≤ 19 := by
    intro n hn
    rw [← String.length_toList, Nat.toString_eq_repr, Nat.toList_repr]
    exact (Nat.length_toDigits_le_iff (by decide) (by decide)).2 hn
  have huint : ∀ n : UInt32, (toString n.toNat).length ≤ 20 := by
    intro n
    have hlt := n.toNat_lt
    exact (hnat _ (by omega)).trans (by decide)
  cases a with
  | card n => exact huint n
  | tuner n => exact huint n
  | srate n => exact huint n
  | tuningTimeout n => exact huint n
  | serverId n =>
    obtain ⟨hleast, hlargest⟩ := ha
    have hbound : (largest : Int) < 10 ^ 19 ∧ -10 ^ 19 < least := by decide
    cases n with
    | ofNat m =>
      rw [Int.ofNat_eq_natCast] at hlargest
      exact (hnat m (by omega)).trans (by decide)
    | negSucc m =>
      have hdigits := hnat (m + 1) (by omega)
      have htext : toString (Int.negSucc m) = "-" ++ toString (m + 1) := rfl
      rw [value, htext, String.length_append]
      exact Nat.add_comm .. ▸ Nat.add_le_add_right hdigits 1
  | pol x => cases x <;> decide
  | deliverySystem x => cases x <;> decide

theorem isLine_line (a : Assignment) (ha : a.Fits) : IsLine a.line := by
  have hkeyword : a.keyword.length ≤ 15 ∧ '\n' ∉ a.keyword.toList :=
    have hall : ∀ k ∈ keywords, k.length ≤ 15 ∧ '\n' ∉ k.toList := by decide
    hall _ a.keyword_mem
  have hvalue := a.length_value ha
  exact isLine_assignment hkeyword.2 a.isPlain_value (by omega)

end Assignment

/-! ### One option after the other -/

theorem Assignment.applyAll_append (as bs : List Assignment) (s : Store) :
    applyAll (as ++ bs) s = applyAll bs (applyAll as s) := List.foldl_append

namespace Options

open Assignment (applyAll applyAll_append)

variable {o : Options} {as : List Assignment}

/-- Giving the values one after the other is giving them all. -/
theorem applyAll_assignments (hfreq : o.freq = none) (hrecording : o.recording = none)
    (s : Store) : applyAll o.assignments s = o.override s := by
  have hcard : ∀ s, applyAll (o.card.toList.map .card) s =
      { s with tuning.card := o.card.or s.tuning.card } := by
    intro s
    cases o.card <;> rfl
  have htuner : ∀ s, applyAll (o.tuner.toList.map .tuner) s =
      { s with tuning.tuner := o.tuner.getD s.tuning.tuner } := by
    intro s
    cases o.tuner <;> rfl
  have hsrate : ∀ s, applyAll (o.srate.toList.map .srate) s =
      { s with tuning.srate := o.srate.getD s.tuning.srate } := by
    intro s
    cases o.srate <;> rfl
  have htimeout : ∀ s, applyAll (o.tuningTimeout.toList.map .tuningTimeout) s =
      { s with tuning.tuningTimeout := o.tuningTimeout.getD s.tuning.tuningTimeout } := by
    intro s
    cases o.tuningTimeout <;> rfl
  have hserver : ∀ s, applyAll (o.serverId.toList.map .serverId) s =
      { s with options.serverId := o.serverId.getD s.options.serverId } := by
    intro s
    cases o.serverId <;> rfl
  have hpol : ∀ s, applyAll (o.pol.toList.map .pol) s =
      { s with tuning.pol := o.pol.or s.tuning.pol } := by
    intro s
    cases o.pol <;> rfl
  have hsystem : ∀ s, applyAll (o.deliverySystem.toList.map .deliverySystem) s =
      { s with tuning.deliverySystem := o.deliverySystem.or s.tuning.deliverySystem } := by
    intro s
    cases o.deliverySystem <;> rfl
  simp only [assignments, applyAll_append, hcard, htuner, hsrate, htimeout, hserver, hpol, hsystem]
  rw [override, overrideTuning, hfreq, hrecording]
  rfl

/-- No two assignments are about one parameter. -/
theorem keywords_nodup (o : Options) : (o.assignments.map (·.keyword)).Nodup := by
  have hpart : ∀ {α : Type} (x : Option α) (f : α → Assignment) (k : String),
      (∀ v, (f v).keyword = k) → ((x.toList.map f).map (·.keyword)).Sublist [k] := by
    intro α x f k hk
    cases x with
    | none => exact List.nil_sublist _
    | some v => simp [hk]
  have hsublist : (o.assignments.map (·.keyword)).Sublist Assignment.keywords := by
    simp only [assignments, List.map_append]
    have hcard := hpart o.card .card "card" fun _ => rfl
    have htuner := hpart o.tuner .tuner "tuner" fun _ => rfl
    have hsrate := hpart o.srate .srate "srate" fun _ => rfl
    have htimeout := hpart o.tuningTimeout .tuningTimeout "tuning_timeout" fun _ => rfl
    have hserver := hpart o.serverId .serverId "server_id" fun _ => rfl
    have hpol := hpart o.pol .pol "pol" fun _ => rfl
    have hsystem := hpart o.deliverySystem .deliverySystem "delivery_system" fun _ => rfl
    exact (((((hcard.append htuner).append hsrate).append htimeout).append hserver).append
      hpol).append hsystem
  exact hsublist.nodup (by decide)

end Options

/-- Assignments to different parameters can be exchanged. -/
theorem Assignment.apply_comm {a b : Assignment} (h : a.keyword ≠ b.keyword) (s : Store) :
    a.apply (b.apply s) = b.apply (a.apply s) := by
  cases a <;> cases b <;> first | rfl | exact absurd rfl h

namespace Options

open Assignment (applyAll)

variable {o : Options} {as : List Assignment}

/-- The order in which the values are given plays no role. -/
theorem applyAll_perm (hperm : as.Perm o.assignments) (s : Store) :
    applyAll as s = applyAll o.assignments s := by
  refine hperm.foldl_eq' (fun a ha b hb s => ?_) s
  rcases eq_or_ne a b with rfl | hne
  · rfl
  · have ha' := hperm.subset ha
    have hb' := hperm.subset hb
    refine Assignment.apply_comm (fun hkeyword => hne ?_) s
    exact List.inj_on_of_nodup_map o.keywords_nodup ha' hb' hkeyword.symm

theorem assignments_asRead (o : Options) : o.asRead.assignments = o.assignments.map (·.asRead) := by
  simp [assignments, asRead, Function.comp_def, Assignment.asRead, Option.toList_map]

end Options

/-! ### Options behind a configuration -/

open Assignment (applyAll)

/-- Drafts that take one value after the other take them all. -/
theorem foldl_asRead (as : List Assignment) (d : Draft) :
    as.foldl (fun d a => { d with store := a.asRead.apply d.store }) d =
      { d with store := applyAll (as.map (·.asRead)) d.store } := by
  induction as generalizing d with
  | nil => rfl
  | cons a as ih => exact ih _

section

variable {o : Options} {as : List Assignment} {d : Draft} {bs : Octets}
  (hfreq : o.freq = none) (hrecording : o.recording = none)
  (hfits : ∀ n, o.serverId = some n → least ≤ n ∧ n ≤ largest) (hperm : as.Perm o.assignments)

include hfits in
theorem Options.fits_of_mem {a : Assignment} (ha : a ∈ o.assignments) : a.Fits := by
  cases a with
  | serverId n =>
    refine hfits n ?_
    simpa [assignments] using ha
  | _ => trivial

include hfits in
theorem Options.asRead_eq_self (hne : o.serverId ≠ some least) : o.asRead = o := by
  have hserver : (o.serverId.map fun n => max (-(largest : Int)) (min largest n)) = o.serverId := by
    cases hserver : o.serverId with
    | none => rfl
    | some n =>
      obtain ⟨hleast, hlargest⟩ := hfits n hserver
      have hne' : n ≠ least := fun h => hne (h ▸ hserver)
      have hbound : least = -(largest : Int) - 1 := rfl
      rw [Option.map_some]
      congr 1
      omega
  rw [Options.asRead, hserver]

include hfreq hrecording hfits hperm

/-- Behind a configuration the lines of the options do what the options do as they are read. -/
theorem parse_options (hparse : (Config.parse Section.all d bs).result = .ok ()) :
    let given := (Config.parse Section.all d bs).draft
    let read := Config.parse Section.all d (withLines bs (as.map (·.line)))
    read.result = .ok () ∧ read.draft = { given with store := o.asRead.override given.store } := by
  intro given read
  have hlines : ∀ l ∈ as.map (·.line), IsLine l := by
    intro l hl
    obtain ⟨a, ha, rfl⟩ := List.mem_map.1 hl
    exact a.isLine_line (Options.fits_of_mem hfits (hperm.subset ha))
  have hread : read.Agrees
      ((Config.parse Section.all d bs).andThen fun d' =>
        parseLines Section.all d' ((as.map (·.line)).map .ofText)) :=
    parse_withLines hlines d bs
  rw [Parsed.andThen_of_ok hparse, List.map_map] at hread
  obtain ⟨hresult, hdraft⟩ := parseLines_of_accepts
    (fun a (_ : a ∈ as) d => Assignment.accepts_line a d) given
  refine ⟨hread.result.trans hresult, hread.draft.trans (hdraft.trans ?_)⟩
  have hvalues : applyAll (as.map (·.asRead)) given.store = o.asRead.override given.store := by
    have hperm' : (as.map (·.asRead)).Perm o.asRead.assignments := by
      rw [Options.assignments_asRead]
      exact hperm.map _
    rw [Options.applyAll_perm hperm', Options.applyAll_assignments (o := o.asRead) hfreq hrecording]
  rw [foldl_asRead, hvalues]

/-- Lines do what options do: the store is the one in which the options stand above the
configuration exactly if the server's number is not the least, resolution then makes the same of it,
and what is written into templates are the values of the options. -/
structure LikeOptions (o : Options) (given read : Draft) : Prop where
  current : read.current = given.current
  store : read.store = o.asRead.override given.store
  same_iff : read.store = o.override given.store ↔ o.serverId ≠ some least
  resolve : o.serverId ≠ some least → ∀ table, ({ read.store with channels := table }).resolve =
    (o.override { given.store with channels := table }).resolve
  expanded : ∀ table, Expanded
    ⟨(o.card.or given.store.tuning.card).getD 0, o.tuner.getD given.store.tuning.tuner,
      o.serverId.getD given.store.options.serverId⟩
    given.store (o.override { given.store with channels := table }).resolve

theorem likeOptions_lines (hparse : (Config.parse Section.all d bs).result = .ok ()) :
    (Config.parse Section.all d (withLines bs (as.map (·.line)))).result = .ok () ∧
      LikeOptions o (Config.parse Section.all d bs).draft
        (Config.parse Section.all d (withLines bs (as.map (·.line)))).draft := by
  obtain ⟨hresult, hdraft⟩ := parse_options hfreq hrecording hfits hperm hparse
  refine ⟨hresult, ?_⟩
  rw [hdraft]
  generalize (Config.parse Section.all d bs).draft = given
  have hasRead : o.serverId ≠ some least → o.asRead = o := o.asRead_eq_self hfits
  exact {
    current := rfl
    store := rfl
    same_iff := by
      refine ⟨fun hsame hleast => ?_, fun hne => by rw [hasRead hne]⟩
      have hserver := congrArg (·.options.serverId) hsame
      simp only [Options.override, Options.asRead, hleast, Option.map_some,
        Option.getD_some] at hserver
      exact absurd hserver (by decide)
    resolve := fun hne table => by rw [hasRead hne]; rfl
    expanded := fun table => by
      have h := expanded_resolve (o.override { given.store with channels := table })
      exact ⟨h.devicePath, h.portExpression, h.logFile, h.pidFile⟩ }

end

/-- A card, a server and a system, given in another order than the options have. -/
theorem likeOptions_lines_card :
    let o : Options :=
      { card := some 4294967295, serverId := some (-9223372036854775807), pol := some .left,
        deliverySystem := some .dvbS2 }
    let as : List Assignment :=
      [.pol .left, .deliverySystem .dvbS2, .serverId (-9223372036854775807), .card 4294967295]
    let bs := octets "card = 1\npol = h\nlog_file = /var/log/%server.log"
    (Config.parse Section.all {} (withLines bs (as.map (·.line)))).result = .ok () ∧
      LikeOptions o (Config.parse Section.all {} bs).draft
        (Config.parse Section.all {} (withLines bs (as.map (·.line)))).draft := by
  intro o as bs
  have hfits : ∀ n, o.serverId = some n → least ≤ n ∧ n ≤ largest := by
    rintro n ⟨⟩
    decide
  have hperm : as.Perm o.assignments := by decide
  exact likeOptions_lines rfl rfl hfits hperm (by decide +kernel)

/-- The options are as good as lines behind the configuration, in any order. -/
def OptionsAreLines (o : Options) : Prop :=
  ∀ (bs : Octets) (as : List Assignment), (Config.parse Section.all {} bs).result = .ok () →
    as.Perm o.assignments →
    (Config.parse Section.all {} (withLines bs (as.map (·.line)))).draft.store =
      o.override (Config.parse Section.all {} bs).draft.store

/-- The least integer as the server's number is read as its successor. -/
theorem not_optionsAreLines :
    ¬∀ o : Options, o.freq = none → o.recording = none →
      (∀ n, o.serverId = some n → least ≤ n ∧ n ≤ largest) → OptionsAreLines o := by
  intro h
  have hfits : ∀ n, some least = some n → least ≤ n ∧ n ≤ largest := by
    rintro n ⟨⟩
    decide
  have hstore := h { serverId := some least } rfl rfl hfits [] [.serverId least] rfl (.refl _)
  have hserver := congrArg (·.options.serverId) hstore
  exact absurd hserver (by decide +kernel)

end Headend.CommandLine
