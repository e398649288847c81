import Headend.Proofs.ListRounds
import Headend.Proofs.Mailbox
import Headend.Proofs.Rotation

/-!
# What the signals of the user ask for

Each kind of advisory signal asks for something of its own: the status of the source in the log, or
the table of channels in the log and the lists once more, or the log file opened again. What is asked
for is described here by what is read, logged, written and opened, whoever does it, and the answers
of the engine are shown to do it.

Facts: `says_logAll` (records one after the other), `reopens_reopenLog` (the log file),
`acts_answer` (every kind of signal).
-/

namespace Headend.Service

open Headend.Host
open Headend.Host.Run
open Headend.Tuner (Source Status)

/-! ### Parts of what is asked for -/

/-- Records of an area are left in the log one after the other, and nothing else is done. Others may
act before each of them. -/
inductive Says (a : Area) : List Record → World → World → Prop where
  | done {w : World} : Says a [] w w
  | next {r : Record} {rest : List Record} {w w' : World}
      (hrest : Says a rest (w.advance.record a r) w') : Says a (r :: rest) w w'

theorem says_logAll (a : Area) (rs : List Record) (w : World) :
    ∃ w', logAll a rs w = .ok () w' ∧ Says a rs w w' := by
  induction rs generalizing w with
  | nil => exact ⟨w, rfl, .done⟩
  | cons r rest ih =>
    obtain ⟨w', hw, hrest⟩ := ih (w.advance.record a r)
    exact ⟨w', (bind_of_ok (rfl : log a r w = _)).trans hw, .next hrest⟩

/-- What the log is told of the status of a source. -/
def statusRecord (s : Source) : Except Failure Status → Record
  | .ok status => .info s!"{s.describe}: {status.text}"
  | .error e => .warn s!"{s.describe}: cannot read status: {e.message}"

theorem reportStatus_eq (s : Source) :
    reportStatus s = (s.readStatus >>= fun r => log .engine (statusRecord s r)) := by
  refine congrArg (s.readStatus >>= ·) (funext fun r => ?_)
  cases r <;> rfl

/-- The lists are written again, if they may be. -/
def Rewrites (h : Handoff) (w w' : World) : Prop :=
  if h.canRefresh then ∃ results lists, Creation h.paths h.store w results lists w' else w' = w

/-- The path of the log is opened again, which keeps what the file there holds, and the log goes to
that file. If the path cannot be opened, or if there is none, the log goes where it went. -/
inductive Reopens (w : World) : Except Failure Unit → World → Prop where
  | opened {path : String} {id : FileId} {files : FileSystem} (hpath : w.sink.path = some path)
      (hopen : w.files.openForWriting path false = .ok (id, files)) :
      Reopens w (.ok ()) { w with sink := ⟨some path, some id⟩, files }
  | refused {path : String} {e : Failure} (hpath : w.sink.path = some path)
      (hopen : w.files.openForWriting path false = .error e) : Reopens w (.error e) w
  | detached (hpath : w.sink.path = none) : Reopens w (.ok ()) w

theorem reopens_reopenLog (w : World) :
    ∃ r w', reopenLog w = .ok r w' ∧ Reopens w.advance r w' := by
  unfold reopenLog step
  dsimp only
  cases hpath : w.advance.sink.path with
  | none =>
    rw [LogSink.reopen_of_no_path _ hpath]
    exact ⟨_, _, rfl, .detached hpath⟩
  | some path =>
    cases hopen : w.advance.files.openForWriting path false with
    | error e =>
      rw [LogSink.reopen_of_error hpath hopen]
      exact ⟨_, _, rfl, .refused hpath hopen⟩
    | ok opened =>
      rw [LogSink.reopen_of_ok hpath hopen]
      exact ⟨_, _, rfl, .opened hpath hopen⟩

/-- The record that announces that the log file is opened again. -/
def reopening : Record := .info "SIGHUP received, reopening the log file"

/-- What the log is told of the log file when that has been tried. -/
def reopenRecords : Except Failure Unit → List Record
  | .ok _ => []
  | .error e => [.warn s!"Cannot reopen log file: {e.message}"]

/-! ### Kinds of signals -/

/-- What a signal asks for has been done. -/
inductive Acts (h : Handoff) : Int → World → World → Prop where
  /-- The status of the source is read and logged. -/
  | status {w mid w' : World} {r : Except Failure Status}
      (hread : h.source.readStatus w = .ok r mid)
      (htold : Says .engine [statusRecord h.source r] mid w') : Acts h Signal.user1 w w'
  /-- The table of channels is logged, and then the lists are written again, if they may be. -/
  | channels {w mid w' : World} (htold : Says .engine (channelRecords h.store.channels) w mid)
      (hlists : Rewrites h mid w') : Acts h Signal.user2 w w'
  /-- The log file is opened again, between a record before and one about a failure. -/
  | reopened {w told opened w' : World} {r : Except Failure Unit}
      (htold : Says .engine [reopening] w told) (hreopens : Reopens told.advance r opened)
      (hwarns : Says .engine (reopenRecords r) opened w') : Acts h Signal.hangup w w'
  /-- A signal of no such kind asks for nothing. -/
  | other {n : Int} {w : World} (hn : n ∉ Signal.advisories) : Acts h n w w

section

variable (h : Handoff) (w : World)

theorem acts_status : ∃ w', answer h Signal.user1 w = .ok () w' ∧ Acts h Signal.user1 w w' := by
  obtain ⟨r, -, mid, hread, -⟩ := attends_sourceStatus h.source w
  refine ⟨mid.advance.record .engine (statusRecord h.source r), ?_, .status hread (.next .done)⟩
  change reportStatus h.source w = _
  rw [reportStatus_eq, bind_of_ok hread]
  rfl

theorem acts_channels : ∃ w', answer h Signal.user2 w = .ok () w' ∧ Acts h Signal.user2 w w' := by
  obtain ⟨mid, hmid, htold⟩ := says_logAll .engine (channelRecords h.store.channels) w
  change ∃ w', (logAll .engine (channelRecords h.store.channels) >>= _) w = _ ∧ _
  rw [bind_of_ok hmid]
  cases hrefresh : h.canRefresh with
  | false =>
    refine ⟨mid, rfl, .channels htold ?_⟩
    rw [Rewrites, hrefresh]
    exact rfl
  | true =>
    obtain ⟨results, lists, w', hw, hcreation⟩ := creation_createLists h.paths h.store mid
    refine ⟨w', (bind_of_ok hw).trans rfl, .channels htold ?_⟩
    rw [Rewrites, hrefresh]
    exact ⟨results, lists, hcreation⟩

theorem answer_hangup :
    answer h Signal.hangup = (log .engine reopening >>= fun _ => reopenLog >>= fun r =>
      logAll .engine (reopenRecords r)) := by
  refine congrArg (log .engine reopening >>= ·) (funext fun _ => ?_)
  refine congrArg (reopenLog >>= ·) (funext fun r => ?_)
  cases r <;> rfl

theorem acts_hangup : ∃ w', answer h Signal.hangup w = .ok () w' ∧ Acts h Signal.hangup w w' := by
  obtain ⟨r, opened, hopened, hreopens⟩ := reopens_reopenLog (w.advance.record .engine reopening)
  obtain ⟨w', hw, hwarns⟩ := says_logAll .engine (reopenRecords r) opened
  refine ⟨w', ?_, .reopened (.next .done) hreopens hwarns⟩
  rw [answer_hangup, bind_of_ok (rfl : log .engine reopening w = _), bind_of_ok hopened, hw]

/-- The engine does what a signal asks for. -/
theorem acts_answer (n : Int) : ∃ w', answer h n w = .ok () w' ∧ Acts h n w w' := by
  by_cases hn : n ∈ Signal.advisories
  · rcases List.mem_cons.1 hn with rfl | hn
    · exact acts_status h w
    rcases List.mem_cons.1 hn with rfl | hn
    · exact acts_channels h w
    obtain rfl := List.mem_singleton.1 hn
    exact acts_hangup h w
  · refine ⟨w, ?_, .other hn⟩
    simp only [Signal.advisories, List.mem_cons, List.not_mem_nil, or_false, not_or] at hn
    unfold answer
    rw [if_neg hn.1, if_neg hn.2.1, if_neg hn.2.2]
    rfl

end

end Headend.Service
