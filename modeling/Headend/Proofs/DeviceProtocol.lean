import Headend.Proofs.DeviceTurns

/-!
# The protocol of tuning

What is done with a device and how it ends are told from one another: requests and waits come in the
order of the plan, a failure ends it at once, a lock at the end is no error, and a cause of the end
interrupts it (`Protocol`). Parameters that are at fault reach no device.

Facts: `Obeys.explains` (how tuning ends), `Watches.effects` (what is done while waiting for a
lock), `Obeys.protocol` (both), `tune_of_unfit` (parameters at fault), `tune_protocol` (all of it).
-/

namespace Headend.Tuner

open Headend.Config (Tuning)
open Headend.Host
open Headend.Host.Run

/-! ### What can be told from the turns -/

/-- A number of rounds in which a status is read, and then it is waited. -/
def polls (n : Nat) : List Event := (List.replicate n [Event.readStatus, .sleep 100]).flatten

/-- Whether a turn does not end tuning. -/
def Turn.IsPassing : Turn → Prop
  | ask _ answer => answer = .ok ()
  | check stop => stop = false
  | read answer => ∃ s, answer = .ok s ∧ s.hasLock = false
  | wait _ | tell _ => True

/-- How tuning ends shows in its turns. -/
structure Explains (xs : List Turn) (r : Except TuneError Unit) : Prop where
  /-- A failure can only be met at the end, and then it is the error. -/
  early : ∀ x ∈ xs.dropLast, x.failure? = none
  device : ∀ e, r = .error (.device e) ↔ ∃ x, xs.getLast? = some x ∧ x.failure? = some e
  /-- There is no error if the last status has a lock. -/
  ok : r = .ok () ↔
    ∃ s, (xs.filterMap Turn.status?).getLast? = some (.ok s) ∧ s.hasLock = true
  /-- Tuning is interrupted if a cause of the end was found. -/
  interrupted : r = .error .interrupted ↔ .check true ∈ xs

theorem Turn.IsPassing.failure? {x : Turn} (h : x.IsPassing) : x.failure? = none := by
  cases x with
  | ask o answer =>
    obtain rfl : answer = .ok () := h
    rfl
  | read answer =>
    obtain ⟨s, rfl, -⟩ := h
    rfl
  | wait | check | tell => rfl

section

variable {plan xs : List Turn} {r : Except TuneError Unit}

theorem Explains.prepend {front : List Turn} (h : Explains xs r)
    (hfront : ∀ x ∈ front, x.IsPassing) (hne : xs ≠ []) : Explains (front ++ xs) r where
  early x hx := by
    rw [List.dropLast_append_of_ne_nil hne] at hx
    rcases List.mem_append.1 hx with hx | hx
    · exact (hfront x hx).failure?
    · exact h.early x hx
  device e := by
    rw [List.getLast?_append_of_ne_nil front hne]
    exact h.device e
  ok := by
    rw [h.ok, List.filterMap_append, List.getLast?_append]
    cases (xs.filterMap Turn.status?).getLast? with
    | some answer => rfl
    | none =>
      -- The statuses in front have no lock, so nothing can be told from them.
      refine iff_of_false (by simp) ?_
      rintro ⟨s, hlast, hlock⟩
      obtain ⟨x, hx, hstatus⟩ := List.mem_filterMap.1 (List.mem_of_getLast? hlast)
      have hpassing := hfront x hx
      cases x with
      | read answer =>
        obtain ⟨s', rfl, hnone⟩ := hpassing
        cases hstatus
        rw [hlock] at hnone
        cases hnone
      | _ => cases hstatus
  interrupted := by
    rw [h.interrupted, List.mem_append]
    refine ⟨.inr, fun hmem => hmem.resolve_left fun hmem => ?_⟩
    exact Bool.noConfusion (hfront _ hmem : true = false)

theorem Watches.ne_nil (h : Watches xs r) : xs ≠ [] := by cases h <;> simp

theorem Watches.explains (h : Watches xs r) : Explains xs r := by
  induction h with
  | stopped => exact ⟨by simp, by simp [Turn.failure?], by simp [Turn.status?], by simp⟩
  | failed e =>
    refine ⟨by simp [Turn.failure?], by simp [Turn.failure?], iff_of_false (by simp) ?_, by simp⟩
    rintro ⟨s, hlast, -⟩
    cases hlast
  | locked h =>
    exact ⟨by simp [Turn.failure?], by simp [Turn.failure?], iff_of_true rfl ⟨_, rfl, h⟩, by simp⟩
  | @again s xs r h rest ih =>
    have hround : ∀ x ∈ [.check false, .read (.ok s), .wait 100], Turn.IsPassing x := by
      simp [Turn.IsPassing, h]
    exact ih.prepend hround rest.ne_nil

theorem Obeys.explains (hplan : ∀ x ∈ plan, x.IsPassing) (h : Obeys plan Watches xs r) :
    Explains xs r := by
  cases h with
  | refused pre rest o e h =>
    have hlast : Explains [.ask o (.error e)] (.error (.device e)) :=
      ⟨by simp, by simp [Turn.failure?], by simp [Turn.status?], by simp⟩
    refine hlast.prepend (fun x hx => hplan x ?_) (List.cons_ne_nil _ _)
    rw [h]
    exact List.mem_append_left _ hx
  | done h => exact h.explains.prepend hplan h.ne_nil

theorem Watches.effects (h : Watches xs r) : ∃ n, xs.filterMap Turn.effect? = polls n ∨
    xs.filterMap Turn.effect? = polls n ++ [.readStatus] := by
  induction h with
  | stopped => exact ⟨0, .inl rfl⟩
  | failed | locked => exact ⟨0, .inr rfl⟩
  | again h rest ih =>
    obtain ⟨n, hn⟩ := ih
    refine ⟨n + 1, hn.imp (fun heq => ?_) fun heq => ?_⟩
    · exact congrArg ([Event.readStatus, .sleep 100] ++ ·) heq
    · exact congrArg ([Event.readStatus, .sleep 100] ++ ·) heq

/-- Tuning by a plan, with the turns that there were and how it ended. -/
structure Protocol (plan xs : List Turn) (r : Except TuneError Unit) : Prop
    extends Explains xs r where
  turns : Obeys plan Watches xs r
  /-- Requests and waits come in the order of the plan, and then statuses and waits by turns. -/
  order : xs.filterMap Turn.effect? <+: plan.filterMap Turn.effect? ∨ ∃ n,
    xs.filterMap Turn.effect? = plan.filterMap Turn.effect? ++ polls n ∨
      xs.filterMap Turn.effect? = plan.filterMap Turn.effect? ++ (polls n ++ [.readStatus])
  /-- All of the plan is carried out unless the device fails. -/
  complete : r = .ok () ∨ r = .error .interrupted → plan <+: xs
  ends : r = .ok () ∨ r = .error .interrupted ∨ ∃ e, r = .error (.device e)

theorem Watches.ends (h : Watches xs r) :
    r = .ok () ∨ r = .error .interrupted ∨ ∃ e, r = .error (.device e) := by
  induction h with
  | stopped => exact .inr (.inl rfl)
  | failed e => exact .inr (.inr ⟨e, rfl⟩)
  | locked => exact .inl rfl
  | again _ _ ih => exact ih

theorem Obeys.protocol (hplan : ∀ x ∈ plan, x.IsPassing) (h : Obeys plan Watches xs r) :
    Protocol plan xs r := by
  refine ⟨h.explains hplan, h, ?_, ?_, ?_⟩
  · cases h with
    | refused pre rest o e h =>
      refine .inl ⟨rest.filterMap Turn.effect?, ?_⟩
      rw [h, List.filterMap_append, List.filterMap_append, List.append_assoc]
      rfl
    | done h =>
      obtain ⟨n, hn⟩ := h.effects
      rw [List.filterMap_append]
      exact .inr ⟨n, hn.imp (congrArg _) (congrArg _)⟩
  · intro hr
    cases h with
    | refused => simp at hr
    | done h => exact List.prefix_append _ _
  · cases h with
    | refused pre rest o e h => exact .inr (.inr ⟨e, rfl⟩)
    | done h => exact h.ends

end

/-! ### All of tuning -/

theorem passing_plan (t : Tuning) (type : UInt32) (p : Parameters) :
    ∀ x ∈ plan t type p, x.IsPassing := by
  have hconverter : ∀ pol, ∀ x ∈ converterPlan t pol, x.IsPassing := by
    intro pol
    unfold converterPlan
    split <;> simp [Turn.IsPassing]
  unfold plan
  refine List.forall_mem_append.2 ⟨?_, List.forall_mem_singleton.2 rfl⟩
  split
  · cases t.pol with
    | none => exact List.forall_mem_nil _
    | some pol => exact hconverter pol
  · exact List.forall_mem_nil _

/-- Whether an error is about the parameters. -/
def TuneError.IsParameters : TuneError → Prop
  | unsupported _ | noFrequency | noPolarization => True
  | cannotOpen .. | device _ | interrupted => False

theorem isParameters_of_parameters {t : Tuning} {type : UInt32} {e : TuneError}
    (h : parameters t type = .ok (.error e)) : e.IsParameters := by
  unfold parameters at h
  split at h
  · cases h
    trivial
  · rename_i kind _
    cases hp : parametersFor t kind with
    | error o =>
      rw [hp] at h
      cases h
    | ok p =>
      rw [hp] at h
      obtain h := Except.ok.inj h
      split at h
      · cases h
        trivial
      · cases h

/-- Whether the parameters cannot be programmed, or a satellite has no polarization. -/
def Unfit (d : OpenDevice) (t : Tuning) (answer : Except TuneError Parameters) : Prop :=
  (∃ e, answer = .error e) ∨ drivenAs t d.type = some .satellite ∧ t.pol = none

section

variable {d : OpenDevice} {t : Tuning} {answer : Except TuneError Parameters}
  (h : parameters t d.type = .ok answer)
include h

theorem tune_of_unfit (hunfit : Unfit d t answer) (w : World) :
    ∃ e, e.IsParameters ∧ tune d t w = .ok (.error e) w := by
  cases answer with
  | error e => exact ⟨e, isParameters_of_parameters h, tune_of_parameters_error h w⟩
  | ok p =>
    obtain ⟨hsatellite, hpol⟩ := hunfit.resolve_left (by simp)
    have hneeds : needsConverter t d.type = true := by
      rw [needsConverter_eq]
      exact beq_iff_eq.2 hsatellite
    refine ⟨.noPolarization, trivial, ?_⟩
    rw [tune, h]
    change (if needsConverter t d.type then _ else _ : Run (Except TuneError Unit)) w = _
    rw [if_pos hneeds, setUpConverter, hpol]
    rfl

theorem tune_of_fit (hfit : ¬Unfit d t answer) (w : World) :
    ∃ p, answer = .ok p ∧ ∃ r w' xs u, tune d t w = .ok r w' ∧ Takes d w xs w' ∧
      Protocol (plan t d.type p) xs r ∧ w'.trace = w.trace ++ u ∧
      effects u = xs.filterMap Turn.effect? := by
  obtain ⟨hanswer, hpol⟩ := not_or.1 hfit
  cases answer with
  | error e => exact absurd ⟨e, rfl⟩ hanswer
  | ok p =>
    obtain ⟨r, w', xs, htune, htakes, hobeys⟩ := performs_tune h (fun hs hn => hpol ⟨hs, hn⟩) w
    obtain ⟨u, hu, heffects⟩ := effects_of_takes htakes
    exact ⟨p, rfl, r, w', xs, u, htune, htakes, hobeys.protocol (passing_plan t d.type p), hu,
      heffects⟩

end

/-- How a device is tuned from a world. -/
structure Tunes (d : OpenDevice) (t : Tuning) (w : World)
    (answer : Except TuneError Parameters) : Prop where
  /-- The parameters are at fault if they cannot be programmed, or a satellite has no
  polarization. -/
  rejects : (∃ e w', e.IsParameters ∧ tune d t w = .ok (.error e) w') ↔ Unfit d t answer
  /-- Then nothing is done. -/
  untouched : ∀ e w', e.IsParameters → tune d t w = .ok (.error e) w' → w' = w
  /-- Else what the plan says is done, and no other request or wait is in the trace. -/
  programs : ¬Unfit d t answer → ∃ p, answer = .ok p ∧ ∃ r w' xs u, tune d t w = .ok r w' ∧
    Takes d w xs w' ∧ Protocol (plan t d.type p) xs r ∧ w'.trace = w.trace ++ u ∧
    effects u = xs.filterMap Turn.effect?
  /-- Readings of strength and noise that are refused with a status are no failure. -/
  readings : ∀ (device : Device) (refusal refusal' : Request → Option Failure),
    refusal .status = refusal' .status →
      (device.nextStatus refusal).1.map Status.flags =
        (device.nextStatus refusal').1.map Status.flags

/-- If no arithmetic result overflows, a device is tuned by the plan or, if the parameters are at
fault, not at all. -/
theorem tune_protocol {d : OpenDevice} {t : Tuning} {answer : Except TuneError Parameters}
    (h : parameters t d.type = .ok answer) (w : World) : Tunes d t w answer := by
  have hunfit : ∀ {e w'}, e.IsParameters → tune d t w = .ok (.error e) w' → Unfit d t answer := by
    intro e w' he htune
    by_contra hfit
    obtain ⟨p, -, r, w'', xs, u, htune', -, hprotocol, -⟩ := tune_of_fit h hfit w
    obtain ⟨rfl, -⟩ := EStateM.Result.ok.inj (htune.symm.trans htune')
    rcases hprotocol.ends with hr | hr | ⟨failure, hr⟩
    · cases hr
    · cases hr
      exact he
    · cases hr
      exact he
  refine ⟨⟨fun ⟨e, w', he, htune⟩ => hunfit he htune, fun hbad => ?_⟩, fun e w' he htune => ?_,
    fun hfit => tune_of_fit h hfit w, fun device _ _ => device.nextStatus_flags⟩
  · obtain ⟨e, he, htune⟩ := tune_of_unfit h hbad w
    exact ⟨e, w, he, htune⟩
  · obtain ⟨e', -, htune'⟩ := tune_of_unfit h (hunfit he htune) w
    exact (EStateM.Result.ok.inj (htune.symm.trans htune')).2

/-- A dish with a switch, at a device that gets its lock with the second status. -/
def dish : World where
  devices := [(0, { statuses := [some 0, some 31] })]
  agenda := [[], [], []]

/-- The device of that world. -/
def dishDevice : OpenDevice where
  path := "dev/frontend0"
  name := "Card"
  type := satelliteType
  file := 0

/-- The parameters for a signal in the high band. -/
def highBand : Tuning where
  freq := .ofQuotient false 11778 1
  pol := some .horizontal
  srate := 27500
  satNumber := 1

/-- What the device is programmed with. -/
def highBandWords : Parameters where
  frequency := 1178000
  words := sevenWords [27500000, fecAuto]

/-- The same world, but the tone cannot be turned on for the band. -/
def toneless : World :=
  { dish with refusals := fun n r => if n = 6 ∧ r = .tone then some .inputOutput else none }

/-- What is done in that world. -/
def tonelessEffects : List Event :=
  [.tone 1, .voltage 1, .sleep 15, .diseqc [0xe0, 0x10, 0x38, 0xf3], .sleep 15, .tone 0]

theorem tune_protocol_dish :
    parameters highBand dishDevice.type = .ok (.ok highBandWords) ∧
      Tunes dishDevice highBand dish (.ok highBandWords) ∧
      Tunes dishDevice highBand toneless (.ok highBandWords) ∧
      (tune dishDevice highBand).endsIn dish (fun r w' => decide (r = .ok ()) &&
        decide (effects w'.trace = tonelessEffects ++
          [.setFrontend highBandWords, .readStatus, .sleep 100, .readStatus])) = true ∧
      (tune dishDevice highBand).endsIn toneless (fun r w' =>
        decide (r = .error (.device .inputOutput)) &&
          decide (effects w'.trace = tonelessEffects)) = true := by
  have h : parameters highBand dishDevice.type = .ok (.ok highBandWords) := by decide +kernel
  exact ⟨h, tune_protocol h dish, tune_protocol h toneless, by decide +kernel, by decide +kernel⟩

end Headend.Tuner
