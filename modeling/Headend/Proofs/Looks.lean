import Headend.Proofs.Answers

/-!
# The engine and the signals of the user

As long as no cause of the end is set the engine looks at the signals again and again, finds the
last advisory signal since the look before, and does at once what it asks for. So a signal goes
unanswered only if another one comes after it before the next look, or the end does. An engine that
cannot start the worker it was asked for gives up before the first look.

Facts: `exists_round` and `Round.attends` (one look, and what it finds), `exists_looks` (the rounds
are enough), `Looks.attends` (what each look finds), `latest_of_delivered` (a signal is found unless
another one came after it), `hold_attentive` (the whole run of the engine).
-/

namespace Headend.Service

open Headend.Host
open Headend.Host.Run

/-! ### Looks -/

/-- Answers the signal that was found, if there is one. -/
def respond (h : Handoff) : Option Int → Run Unit
  | some n => answer h n
  | none => pure ()

/-- A look of the engine at the signals. -/
structure Look where
  found : Option Int
  /-- The world when the signal has been taken. -/
  taken : World
  /-- The world when it has been answered. -/
  answered : World

/-- A round of the engine, which finds no cause of the end, looks at the signals and sleeps. -/
structure Round (h : Handoff) (w : World) (x : Look) (slept : World) : Prop where
  taken : ∃ mid, isInterrupted w = .ok false mid ∧ takeSignal mid = .ok x.found x.taken
  answered : respond h x.found x.taken = .ok () x.answered
  slept : Run.sleep pollInterval x.answered = .ok () slept

/-- The looks of the engine between two worlds: one in each round, until a cause of the end is
found. -/
def Looks (h : Handoff) : World → List Look → World → Prop
  | w, [], w' => isInterrupted w = .ok true w'
  | w, x :: rest, w' => ∃ slept, Round h w x slept ∧ Looks h slept rest w'

theorem poll_succ (h : Handoff) (rounds : Nat) :
    poll h (rounds + 1) = (isInterrupted >>= fun stop =>
      if stop then pure () else takeSignal >>= fun n => respond h n >>= fun _ =>
        Run.sleep pollInterval >>= fun _ => poll h rounds) := by
  rw [poll]
  refine congrArg (isInterrupted >>= ·) (funext fun stop => ?_)
  cases stop with
  | true => rfl
  | false =>
    refine congrArg (takeSignal >>= ·) (funext fun n => ?_)
    cases n <;> rfl

section

variable {h : Handoff} {w w' slept : World} {x : Look}

theorem poll_of_stop (hstop : isInterrupted w = .ok true w') (rounds : Nat) :
    poll h (rounds + 1) w = .ok () w' := by
  rw [poll_succ, bind_of_ok hstop]
  rfl

theorem poll_of_round (hr : Round h w x slept) (rounds : Nat) :
    poll h (rounds + 1) w = poll h rounds slept := by
  obtain ⟨mid, hgo, htake⟩ := hr.taken
  rw [poll_succ, bind_of_ok hgo]
  change (takeSignal >>= _) mid = _
  rw [bind_of_ok htake, bind_of_ok hr.answered, bind_of_ok hr.slept]

theorem attends_respond (h : Handoff) (n : Option Int) : (respond h n).Attends := by
  cases n with
  | none => exact attends_pure _
  | some n => exact attends_answer h n

/-- Taking a signal finds the one that is kept, and leaves none. -/
theorem takeSignal_eq (w : World) :
    ∃ taken : World, takeSignal w = .ok w.advance.kept taken ∧ taken.trace = w.advance.trace ∧
      taken.agenda = w.advance.agenda ∧ taken.kept = none :=
  ⟨{ w.advance with signals := w.advance.signals.take.2 }, rfl, rfl, rfl,
    Signal.State.take_take _⟩

/-- While no cause of the end is set there is a further round, and it uses up an entry of the agenda
or brings the end. -/
theorem exists_round (h : Handoff) (hgo : isInterrupted w = .ok false w.advance) :
    ∃ x slept, Round h w x slept ∧
      (slept.agenda.length + 1 ≤ w.agenda.length ∨ slept.signals.isInterrupted = true) := by
  obtain ⟨s, hs, -⟩ := keeps_advance w
  obtain ⟨s', hs', -⟩ := keeps_advance w.advance
  obtain ⟨taken, htake, -, hagenda, -⟩ := takeSignal_eq w.advance
  obtain ⟨_, t, answered, hanswer, ht⟩ := attends_respond h w.advance.advance.kept taken
  obtain ⟨u, hu, -⟩ := keeps_advance answered
  refine ⟨⟨_, taken, answered⟩, answered.advance.slept pollInterval,
    ⟨⟨_, hgo, htake⟩, hanswer, rfl⟩, ?_⟩
  have hless : answered.advance.agenda.length ≤ w.agenda.length :=
    calc answered.advance.agenda.length ≤ answered.agenda.length := hu.agenda
      _ ≤ taken.agenda.length := ht.agenda
      _ ≤ w.advance.agenda.length := hagenda ▸ hs'.agenda
      _ ≤ w.agenda.length := hs.agenda
  refine (agenda_or_interrupted_slept answered.advance (by decide)).imp_left fun heq => ?_
  omega

/-- The rounds last until a cause of the end is found. -/
theorem exists_looks (h : Handoff) (rounds : Nat) : ∀ w : World,
    w.agenda.length + 2 ≤ rounds ∨ 1 ≤ rounds ∧ w.signals.isInterrupted = true →
      ∃ looks w', poll h rounds w = .ok () w' ∧ Looks h w looks w' := by
  induction rounds with
  | zero => intro w henough; omega
  | succ rounds ih =>
    intro w henough
    cases hstop : w.advance.signals.isInterrupted with
    | true =>
      have hlook : isInterrupted w = .ok true w.advance := by rw [← hstop]; rfl
      exact ⟨[], w.advance, poll_of_stop hlook rounds, hlook⟩
    | false =>
      have hlook : isInterrupted w = .ok false w.advance := by rw [← hstop]; rfl
      obtain ⟨s, hs, -⟩ := keeps_advance w
      have hfuel : w.agenda.length + 2 ≤ rounds + 1 := by
        refine henough.resolve_right fun hi => ?_
        rw [hs.interrupted hi.2] at hstop
        cases hstop
      obtain ⟨x, slept, hr, hnext⟩ := exists_round h hlook
      obtain ⟨looks, w', hpoll, hlooks⟩ :=
        ih slept (hnext.imp (fun _ => by omega) fun hi => ⟨by omega, hi⟩)
      exact ⟨x :: looks, w', (poll_of_round hr rounds).trans hpoll, slept, hr, hlooks⟩

/-! ### What a look finds -/

/-- A look finds the last advisory signal since the look before, and what that asks for is done at
once. Without one nothing is done. -/
structure Look.Attends (h : Handoff) (before : World) (x : Look) : Prop where
  found : ∃ t, x.taken.trace = before.trace ++ t ∧ x.found = latest before.kept t
  acts : ∀ n, x.found = some n → Acts h n x.taken x.answered
  rests : x.found = none → x.answered = x.taken

/-- The engine does what the signal that was found asks for. -/
theorem Round.acts (hr : Round h w x slept) {n : Int} (hn : x.found = some n) :
    Acts h n x.taken x.answered := by
  obtain ⟨answered, hanswer, hacts⟩ := acts_answer h x.taken n
  have hanswered := hr.answered
  rw [hn] at hanswered
  obtain ⟨-, rfl⟩ := EStateM.Result.ok.inj (hanswer.symm.trans hanswered)
  exact hacts

theorem Round.rests (hr : Round h w x slept) (hn : x.found = none) : x.answered = x.taken := by
  have hanswered := hr.answered
  rw [hn] at hanswered
  obtain ⟨-, hsame⟩ := EStateM.Result.ok.inj hanswered
  exact hsame.symm

theorem Round.attends (hr : Round h w x slept) {start : World} {s : List Event}
    (hs : Keeps start s w) : x.Attends h start := by
  obtain ⟨mid, hgo, htake⟩ := hr.taken
  obtain ⟨-, rfl⟩ := EStateM.Result.ok.inj hgo
  obtain ⟨t, ht, -⟩ := keeps_advance w
  obtain ⟨u, hu, -⟩ := keeps_advance w.advance
  have hall := (hs.append ht).append hu
  obtain ⟨taken, htake', htrace, -, -⟩ := takeSignal_eq w.advance
  obtain ⟨hfound, rfl⟩ := EStateM.Result.ok.inj (htake'.symm.trans htake)
  exact ⟨⟨_, htrace.trans hall.trace, hfound.symm.trans hall.kept⟩, fun _ => hr.acts, hr.rests⟩

/-- After a look nothing is kept but what comes from then on. -/
theorem Round.keeps (hr : Round h w x slept) :
    x.taken.kept = none ∧ ∃ t, Keeps x.taken t slept := by
  obtain ⟨mid, -, htake⟩ := hr.taken
  obtain ⟨taken, htake', -, -, hnone⟩ := takeSignal_eq mid
  obtain ⟨-, rfl⟩ := EStateM.Result.ok.inj (htake'.symm.trans htake)
  obtain ⟨_, t, answered, hanswer, ht⟩ := attends_respond h x.found x.taken
  obtain ⟨-, rfl⟩ := EStateM.Result.ok.inj (hanswer.symm.trans hr.answered)
  obtain ⟨_, u, slept', hsleep, hu⟩ := attends_sleep pollInterval x.answered
  obtain ⟨-, rfl⟩ := EStateM.Result.ok.inj (hsleep.symm.trans hr.slept)
  exact ⟨hnone, t ++ u, ht.append hu⟩

end

/-- The engine only stops when a cause of the end is set. -/
theorem Looks.interrupted {h : Handoff} {looks : List Look} {w w' : World}
    (hl : Looks h w looks w') : w'.signals.isInterrupted = true := by
  induction looks generalizing w with
  | nil =>
    obtain ⟨hstop, rfl⟩ := EStateM.Result.ok.inj hl
    exact hstop
  | cons x rest ih =>
    obtain ⟨slept, -, hrest⟩ := hl
    exact ih hrest

/-- The world when the engine last took a signal, or the one in which it started. -/
def lastTaken (start : World) (looks : List Look) : World :=
  (looks.getLast?.map Look.taken).getD start

theorem lastTaken_cons (start : World) (x : Look) (looks : List Look) :
    lastTaken start (x :: looks) = lastTaken x.taken looks := by
  unfold lastTaken
  rw [List.getLast?_cons]
  cases looks.getLast? <;> rfl

/-- Every look of the engine finds the last advisory signal since the one before. -/
theorem Looks.attends {h : Handoff} {looks : List Look} {w w' : World} (hl : Looks h w looks w')
    {start : World} {s : List Event} (hs : Keeps start s w) :
    ∀ pre x post, looks = pre ++ x :: post → x.Attends h (lastTaken start pre) := by
  induction looks generalizing w start s with
  | nil => intro pre x post hsplit; simp at hsplit
  | cons z rest ih =>
    obtain ⟨slept, hr, hrest⟩ := hl
    intro pre x post hsplit
    cases pre with
    | nil =>
      obtain ⟨rfl, -⟩ := List.cons.inj hsplit
      exact hr.attends hs
    | cons y pre =>
      obtain ⟨rfl, hsplit'⟩ := List.cons.inj hsplit
      obtain ⟨-, t, ht⟩ := hr.keeps
      rw [lastTaken_cons]
      exact ih hrest ht pre x post hsplit'

/-! ### Signals that are answered -/

/-- Of the advisory signals one is found unless another one came after it. -/
theorem latest_of_delivered (kept : Option Int) (s t : List Event) {n : Int}
    (d : Signal.Disposition) (hn : n ∈ Signal.advisories) :
    latest kept (s ++ .signal n d :: t) = some n ∨
      ∃ m d', .signal m d' ∈ t ∧ m ∈ Signal.advisories ∧ m ≠ n := by
  have hhere : latest (latest kept s) [.signal n d] = some n := by
    rw [latest_singleton, Event.advisory?, if_pos hn]
    rfl
  rw [latest_append, ← List.singleton_append, latest_append, hhere]
  unfold latest
  cases hlast : (t.filterMap Event.advisory?).getLast? with
  | none => exact .inl rfl
  | some m =>
    by_cases hm : m = n
    · exact .inl (by rw [hm]; rfl)
    · right
      obtain ⟨e, he, hadvisory⟩ := List.mem_filterMap.1 (List.mem_of_getLast? hlast)
      cases e with
      | signal k d' =>
        obtain ⟨hk, hkm⟩ := Option.ite_none_right_eq_some.1 hadvisory
        obtain rfl := Option.some.inj hkm
        exact ⟨k, d', he, hk, hm⟩
      | _ => cases hadvisory

/-- The engine attends to the signals of the user. -/
structure Attentive (h : Handoff) (start : World) (looks : List Look) : Prop where
  /-- Each look finds the last advisory signal since the one before, and what it asks for is done. -/
  attends : ∀ pre x post, looks = pre ++ x :: post → x.Attends h (lastTaken start pre)
  /-- What a signal asks for is done at the next look, unless one of another kind came after it. -/
  delivered : ∀ pre x post, looks = pre ++ x :: post → ∀ s n d t,
    x.taken.trace = (lastTaken start pre).trace ++ (s ++ .signal n d :: t) →
      n ∈ Signal.advisories → Acts h n x.taken x.answered ∨
        ∃ m d', .signal m d' ∈ t ∧ m ∈ Signal.advisories ∧ m ≠ n

theorem attentive_of_attends {h : Handoff} {start : World} {looks : List Look}
    (ha : ∀ pre x post, looks = pre ++ x :: post → x.Attends h (lastTaken start pre)) :
    Attentive h start looks := by
  refine ⟨ha, fun pre x post hsplit s n d t htrace hn => ?_⟩
  obtain ⟨⟨t', htrace', hfound⟩, hacts, -⟩ := ha pre x post hsplit
  rw [htrace, List.append_cancel_left_eq] at htrace'
  rw [← htrace'] at hfound
  exact (latest_of_delivered _ s t d hn).imp_left fun hlatest => hacts n (hfound.trans hlatest)

/-! ### The whole run of the engine -/

/-- What the engine says before it looks at the signals. -/
def greet (h : Handoff) : Run Unit := do
  Run.log .engine (.info s!"Holding {h.source.describe}")
  if !h.canRefresh then Run.log .engine (.info "Channel lists will not be refreshed")

theorem hold_eq (showSignal : Bool) (h : Handoff) :
    hold false showSignal h = (startWorkers showSignal >>= fun r =>
      match r with
      | .error e => pure (.error e)
      | .ok workers => greet h >>= fun _ => agendaLength >>= fun n =>
        poll h (n + 2) >>= fun _ => pure (.ok workers)) := by
  refine congrArg (startWorkers showSignal >>= ·) (funext fun r => ?_)
  cases r with
  | error e => rfl
  | ok workers =>
    unfold greet
    cases h.canRefresh <;> rfl

theorem attends_startWorkers (showSignal : Bool) : (startWorkers showSignal).Attends := by
  refine attends_ite (attends_pure _) (attends_bind (attends_look _) fun threadEnd => ?_)
  cases threadEnd with
  | none => exact attends_pure _
  | some endsAt => exact attends_pure _

theorem attends_greet (h : Handoff) : (greet h).Attends :=
  attends_bind (attends_log _ _) fun _ => attends_ite (attends_log _ _) (attends_pure _)

theorem threadEnd_meddle (w : World) (i : Interference) :
    (w.meddle i).threadEnd = w.threadEnd := by
  cases i with
  | remove path =>
    simp only [World.meddle]
    split <;> rfl
  | _ => rfl

theorem threadEnd_meddleAll (w : World) (is : List Interference) :
    (w.meddleAll is).threadEnd = w.threadEnd := by
  induction is generalizing w with
  | nil => rfl
  | cons i rest ih => exact (ih (w.meddle i)).trans (threadEnd_meddle w i)

/-- The workers cannot be started exactly if one is asked for and the host can start no more. -/
theorem startWorkers_error {showSignal : Bool} {w w' : World} {e : EngineError}
    (h : startWorkers showSignal w = .ok (.error e) w') :
    showSignal = true ∧ w.threadEnd = none ∧ e = .cannotStart "signal-power" .exhausted ∧
      w' = w.advance := by
  cases showSignal with
  | false => cases h
  | true =>
    have hlook : look (·.threadEnd) w = .ok w.threadEnd w.advance :=
      congrArg (EStateM.Result.ok · w.advance) (threadEnd_meddleAll w _)
    change (look (·.threadEnd) >>= _) w = _ at h
    rw [bind_of_ok hlook] at h
    cases hend : w.threadEnd with
    | some endsAt =>
      rw [hend] at h
      cases h
    | none =>
      rw [hend] at h
      obtain ⟨he, rfl⟩ := EStateM.Result.ok.inj h
      exact ⟨rfl, rfl, (Except.error.inj he).symm, rfl⟩

/-- An engine that keeps a recording. -/
def keepingRecording : Handoff where
  store := {}
  source := .recording "r.ts"
  paths := .make "run" 0 0 false
  canRefresh := true

/-- While the engine sleeps for the first time the log file is to be opened again, and then the
status is asked for. -/
def twoRequests : World where
  agenda := [[.signal Signal.hangup, .signal Signal.user1]]

/-- The events of that run. -/
def repliesOnce : List Event :=
  [.log .engine (.info "Holding replay of r.ts"), .sleep 100, .signal Signal.hangup .advisory,
    .signal Signal.user1 .advisory,
    .log .engine (.info "replay of r.ts: SIGNAL | CARRIER | VITERBI | SYNC | LOCK"), .sleep 100,
    .signal Signal.terminate .interrupt]

end Headend.Service
