import Headend.Proofs.Life

/-!
# The first cause decides the exit status

Causes of the end come from signals and from failures: the source cannot be acquired, a stage ends
with an error, a generated file cannot be removed. Each failure is made a cause right after it has
shown, and only such failures are. The status is told from the cause that is set when everything has
been given back, so it is that of the first cause up to then, and what happens later is too late.

Facts: `sincere_of_steady` (where no failure shows, none is made a cause), `course_finish` (what is
left when the stages are over), `start_status` (the status), `error_overtaken` (a signal that comes
between a failure and its cause).
-/

namespace Headend.Host

open Headend.Signal (Cause StandsForCause)

/-! ### Failures that show and failures that count -/

/-- The failure that an event makes a cause of the end, whether or not one was set before. -/
def Event.failure? : Event → Option ExitCode
  | reached (.failed code) => some code
  | _ => none

/-- The failures that are made causes of the end. -/
def failures (t : List Event) : List ExitCode := t.filterMap Event.failure?

/-- The failures that show. -/
def shown (t : List Event) : List ExitCode := t.filterMap Event.shown?

/-- Whether the failures that are made causes are those that show, in the same order. -/
def Sincere (t : List Event) : Prop := failures t = shown t

theorem failures_append (s t : List Event) : failures (s ++ t) = failures s ++ failures t :=
  List.filterMap_append

theorem shown_append (s t : List Event) : shown (s ++ t) = shown s ++ shown t :=
  List.filterMap_append

theorem failures_of_steady {t : List Event} (h : Steady t) : failures t = [] := by
  refine List.filterMap_eq_nil_iff.2 fun x hx => ?_
  unfold Event.failure?
  split
  · rcases h _ hx with hforeign | hsteady
    · exact hforeign.elim
    · exact hsteady.isInert.elim
  · rfl

theorem shown_of_steady {t : List Event} (h : Steady t) : shown t = [] := by
  refine List.filterMap_eq_nil_iff.2 fun x hx => ?_
  rcases h x hx with hforeign | hsteady
  · cases x with
    | log => exact hforeign.elim
    | reached => exact hforeign.elim
    | _ => rfl
  · exact hsteady.shown

theorem sincere_of_steady {t : List Event} (h : Steady t) : Sincere t :=
  (failures_of_steady h).trans (shown_of_steady h).symm

instance : Additive Sincere where
  foreign t h := sincere_of_steady (Additive.foreign t h)
  append s t hs ht := by rw [Sincere, failures_append, shown_append, hs, ht]

/-- A failure that has shown is made a cause, and the process does nothing else before. -/
theorem sincere_failure {x : Event} {code : ExitCode} (hx : x.failure? = none)
    (hshown : x.shown? = some code) {t : List Event} (ht : Steady t) :
    Sincere (x :: (t ++ [.reached (.failed code)])) := by
  have hfailures : failures (x :: (t ++ [.reached (.failed code)])) = [code] := by
    rw [failures, List.filterMap_cons_none hx]
    change failures (t ++ _) = _
    rw [failures_append, failures_of_steady ht]
    rfl
  have hshowing : shown (x :: (t ++ [.reached (.failed code)])) = [code] := by
    rw [shown, List.filterMap_cons_some hshown]
    change code :: shown (t ++ _) = _
    rw [shown_append, shown_of_steady ht]
    rfl
  rw [Sincere, hfailures, hshowing]

/-- The exit status that causes of the end lead to, by the first of them. -/
def demanded : List Cause → Int
  | .error code :: _ => code.number
  | .signal _ :: _ | [] => 0

theorem isProper_of_mem_causes {t : List Event}
    (hn : ∀ n d, .signal n d ∈ t → Signal.IsNumber n) {c : Cause} (hc : c ∈ causes t) :
    c.IsProper := by
  obtain ⟨x, hx, hcause⟩ := List.mem_filterMap.1 hc
  unfold Event.cause? at hcause
  split at hcause
  · obtain ⟨-, hsignal⟩ := Option.ite_none_right_eq_some.1 hcause
    cases hsignal
    exact hn _ _ hx
  · cases hcause
    trivial
  · cases hcause

/-- After a course that begins without a cause of the end, the first that it gives is set. -/
theorem Course.interrupted {w w' : World} {t : List Event} (h : Course w t w')
    (hw : w.signals.cause = 0) (hn : ∀ n d, .signal n d ∈ t → Signal.IsNumber n) :
    w'.signals.interrupted = (causes t).head? := by
  have hnone : StandsForCause w.signals.cause none := hw
  have hfirst := h.cause hnone fun _ => isProper_of_mem_causes hn
  rw [Option.none_or] at hfirst
  exact hfirst.decode

end Headend.Host

namespace Headend.Service

open Headend.Config
open Headend.Host
open Headend.Host.Run
open Headend.Tuner (Frontend Source TuneError)

theorem sincere_giveBack (h : Holdings) : (giveBack h).Gives Sincere := by
  refine gives_giveBack (fun _ => sincere_of_steady) ?_ h
  intro path e r u v hmissing hu hv
  have hlog : Steady [.log .shutdown r] := steady_singleton ⟨trivial, rfl⟩
  have hsteady : Steady (u ++ .log .shutdown r :: v) :=
    Additive.append _ _ (Additive.foreign u hu)
      (Additive.append [.log .shutdown r] v hlog (Additive.foreign v hv))
  have hsincere :=
    sincere_failure (x := .reached (.notRemoved path e)) rfl (if_neg hmissing) hsteady
  rwa [List.append_assoc, List.cons_append] at hsincere

/-! ### The status -/

/-- The exit code of the error that the stages led to. -/
def errorCode? : Except StageError Unit → Option ExitCode
  | .error err => some err.exitCode
  | .ok _ => none

/-- The exit status that an error stands for. -/
def StageError.number : StageError → Int
  | configuration (.cannotOpen ..) | configuration (.cannotRead ..) => 2
  | configuration (.tooManyChannels ..) => 4
  | configuration _ => 3
  | cannotCreate .. => 5
  | tuning _ => 7
  | engine _ => 12

theorem StageError.number_exitCode (err : StageError) : err.exitCode.number = err.number := by
  cases err with
  | configuration e => cases e <;> rfl
  | _ => rfl

theorem course_announce (result : Except StageError Unit) (w : World) :
    ∃ t w', announce result w = .ok () w' ∧ Course w t w' ∧
      failures t = (errorCode? result).toList ∧ shown t = [] := by
  cases result with
  | ok _ => exact ⟨[], w, rfl, .nil w, rfl, rfl⟩
  | error err =>
    obtain ⟨u, v, w', hreport, hu, hv, hcourse⟩ :=
      course_report .startup (.error err.message) err.exitCode w
    have hsteady : Steady (u ++ .log .startup (.error err.message) :: v) :=
      Additive.append _ _ (Additive.foreign u hu)
        (Additive.append [_] v (steady_singleton ⟨trivial, rfl⟩) (Additive.foreign v hv))
    have heq : u ++ .log .startup (.error err.message) :: (v ++ [.reached (.failed err.exitCode)]) =
        (u ++ .log .startup (.error err.message) :: v) ++ [.reached (.failed err.exitCode)] := by
      rw [List.append_assoc, List.cons_append]
    rw [heq] at hcourse
    refine ⟨_, w', hreport, hcourse, ?_, ?_⟩
    · rw [failures_append, failures_of_steady hsteady]
      rfl
    · rw [shown_append, shown_of_steady hsteady]
      rfl

/-- The status is told from the cause that is set at one moment. After it there is only what others
bring about and the last record. -/
theorem course_takeLeave (w : World) :
    ∃ u mid v w' h, takeLeave w = .ok (exitStatus mid.signals.interrupted, h) w' ∧
      Course w u mid ∧ Course mid (v ++ [.log .shutdown (farewell mid.signals.interrupted)]) w' ∧
      (∀ x ∈ u, x.IsForeign) ∧ ∀ x ∈ v, x.IsForeign := by
  obtain ⟨u, hu, hforeign⟩ := course_advance w
  obtain ⟨v, hv, hforeign'⟩ := course_advance w.advance
  have hlog := course_record w.advance.advance .shutdown (farewell w.advance.signals.interrupted)
  exact ⟨u, w.advance, v, _, _, rfl, hu, hv.append hlog, hforeign, hforeign'⟩

/-- When the stages are over, their error is made a cause, then the failures that show while
everything is given back, and then the status is told. -/
theorem course_finish (result : Except StageError Unit) {h : Holdings} (ho : h.status = none)
    (w : World) :
    ∃ u mid v w', finish result h w = .ok (exitStatus mid.signals.interrupted) w' ∧
      Course w u mid ∧ Course mid (v ++ [.log .shutdown (farewell mid.signals.interrupted)]) w' ∧
      failures u = (errorCode? result).toList ++ shown u ∧ ∀ x ∈ v, x.IsForeign := by
  obtain ⟨s, w₁, hannounce, hs, hfailures, hshown⟩ := course_announce result w
  obtain ⟨⟨⟩, w₂, hback⟩ := returns_giveBack h w₁
  obtain ⟨t, ht, hsincere⟩ := (sincere_giveBack h).ok hback
  obtain ⟨u, mid, v, w', _, hleave, hu, hv, hforeign, hlate⟩ := course_takeLeave w₂
  have hquiet : Steady u := Additive.foreign u hforeign
  refine ⟨s ++ (t ++ u), mid, v, w', ?_, hs.append (ht.append hu), hv, ?_, hlate⟩
  · rw [finish_eq result ho, bind_of_ok hannounce, bind_of_ok hback, bind_of_ok hleave]
    rfl
  · calc failures (s ++ (t ++ u))
        = (errorCode? result).toList ++ failures (t ++ u) := by rw [failures_append, hfailures]
      _ = (errorCode? result).toList ++ shown (t ++ u) := by
        rw [failures_append, shown_append, hsincere, failures_of_steady hquiet,
          shown_of_steady hquiet]
      _ = (errorCode? result).toList ++ shown (s ++ (t ++ u)) := by
        rw [shown_append s, hshown, List.nil_append]

/-- How the exit status comes about. The stages last for the events `t` and end with a result, then
come the events `u`, at whose end the status is told, and then the events `v`. A failure counts from
the moment in which it is made a cause, right after it has been told in the log: a signal that comes
while it is told is earlier. -/
structure Verdict (result : Except StageError Unit) (t u v : List Event) (status : Int) : Prop where
  /-- During the stages, a failure to acquire the source is made a cause, and nothing else is. -/
  stages : failures t = shown t
  /-- Then an error of the stages is made a cause, and each failure to remove a file. -/
  finish : failures u = (errorCode? result).toList ++ shown u
  number : ∀ err, result = .error err → err.exitCode.number = err.number
  /-- The first of these failures and of the signals that ask for the end decides. -/
  status : (∀ n d, .signal n d ∈ t ++ u → Signal.IsNumber n) → status = demanded (causes (t ++ u))
  /-- Later there is nothing of the process itself but its last record. -/
  late : ∃ s cause, v = s ++ [.log .shutdown (farewell cause)] ∧ ∀ x ∈ s, x.IsForeign

theorem exitStatus_head? (cs : List Signal.Cause) : exitStatus cs.head? = demanded cs := by
  cases cs with
  | nil => rfl
  | cons c rest => cases c <;> rfl

/-- The exit status of a whole life that begins without a cause of the end, if it does not break
down before its end. -/
theorem start_status {f : Frontend} (hf : f.Gives Steady) {e : Engine} (he : e.Gives Steady)
    (o : CommandLine.Options) {w : World} (hw : w.signals = {}) :
    (∃ b w', stages o f e w = .error b w' ∧ start o f e w = .error b w') ∨
      ∃ result h mid status w' t u v, stages o f e w = .ok (result, h) mid ∧
        start o f e w = .ok status w' ∧ mid.trace = w.trace ++ t ∧
        w'.trace = mid.trace ++ (u ++ v) ∧ Verdict result t u v status := by
  have hstages : (stages o f e).Gives Sincere := by
    refine gives_stages (fun _ => sincere_of_steady) (fun err v hv => ?_)
      (hf.mono fun _ => sincere_of_steady) (fun handoff => ?_) o
    · exact sincere_failure rfl rfl (Additive.foreign v hv)
    · exact gives_mono (he handoff) fun _ => sincere_of_steady
  obtain ⟨t, ht, hsincere⟩ := hstages w
  rw [start_eq]
  cases hrun : stages o f e w with
  | error b mid =>
    exact .inl ⟨b, mid, rfl, bind_of_error hrun⟩
  | ok r mid =>
    obtain ⟨result, h⟩ := r
    rw [lastWorld_of_ok hrun] at ht
    obtain ⟨u, told, v, w', hfinish, hu, hv, hfailures, hlate⟩ :=
      course_finish result (isOpen_stages o f e w _ _ hrun) mid
    refine .inr ⟨result, h, mid, exitStatus told.signals.interrupted, w', t, u, _, rfl,
      (bind_of_ok hrun).trans hfinish, ht.trace, (hu.append hv).trace, hsincere, hfailures,
      fun err _ => err.number_exitCode, fun hnumbers => ?_, v, _, rfl, hlate⟩
    rw [(ht.append hu).interrupted (by rw [hw]) hnumbers, exitStatus_head?]

/-- A world without devices, in which the end is asked for when tuning has already failed. -/
def refusing : World :=
  { schedule := fun n => if n = 9 then [.signal Signal.terminate] else [] }

theorem start_status_refusing :
    Frontend.hardware.Gives Steady ∧ (Engine.holding true false).Gives Steady ∧
      refusing.signals = {} ∧
      (start {} .hardware (.holding true false)).endsIn refusing (fun status w' =>
        status == 7 && decide (.signal Signal.terminate .interrupt ∈ w'.trace)) = true ∧
      ((∃ b w', stages {} .hardware (.holding true false) refusing = .error b w' ∧
          start {} .hardware (.holding true false) refusing = .error b w') ∨
        ∃ result h mid status w' t u v,
          stages {} .hardware (.holding true false) refusing = .ok (result, h) mid ∧
            start {} .hardware (.holding true false) refusing = .ok status w' ∧
            mid.trace = refusing.trace ++ t ∧ w'.trace = mid.trace ++ (u ++ v) ∧
            Verdict result t u v status) := by
  have hf : Frontend.hardware.Gives Steady := Tuner.plain_hardware.mono fun _ => steady_of_plain
  have he : (Engine.holding true false).Gives Steady := steady_holding true false
  exact ⟨hf, he, rfl, by decide +kernel, start_status hf he {} rfl⟩

/-- A world without files, in which the end is asked for when an error has been told in the log, but
is no cause of the end yet. -/
def hurried : World :=
  { schedule := fun n => if n = 2 then [.signal Signal.terminate] else [] }

/-- An error that the stages led to before anything else does not always decide the status: a signal
that comes before the error is made a cause is the first cause. -/
theorem error_overtaken :
    ¬∀ (o : CommandLine.Options) (w mid w' : World) (err : StageError) (h : Holdings) (status : Int),
      w.signals = {} → stages o .hardware (.holding true false) w = .ok (.error err, h) mid →
      mid.trace = w.trace → start o .hardware (.holding true false) w = .ok status w' →
      status = err.number := by
  intro hall
  let o : CommandLine.Options := { config := some "d.conf" }
  obtain ⟨⟨result, h⟩, mid, hstages, hfailed⟩ := exists_of_endsIn (show
    (stages o .hardware (.holding true false)).endsIn hurried (fun r mid =>
      match r.1 with
      | .error err => err.number == 2 && decide (mid.trace = [])
      | .ok _ => false) = true by decide +kernel)
  obtain ⟨status, w', hstart, hsuccess⟩ := exists_of_endsIn (show
    (start o .hardware (.holding true false)).endsIn hurried (fun status _ => status == 0) = true
      by decide +kernel)
  cases result with
  | ok _ => cases hfailed
  | error err =>
    obtain ⟨hnumber, htrace⟩ := Bool.and_eq_true_iff.1 hfailed
    have hsame := hall o hurried mid w' err h status rfl hstages (of_decide_eq_true htrace) hstart
    rw [eq_of_beq hsuccess, eq_of_beq hnumber] at hsame
    cases hsame

end Headend.Service
