import Headend.Proofs.Course
import Headend.Proofs.LineSequence
import Headend.Service.Configuration

/-!
# Reading a file

A file is read twice. The first time all of its lines are shown, with their numbers, whatever comes
of them; the second time the same lines are carried out, one after the other.

Facts: `Run.course_logAll` (the records of a course), `course_parseFile` (a file from its two
readings), `reading_inSequence`.
-/

namespace Headend.Host

open Headend.Text (Octets)

/-! ### The records of a course -/

/-- The record that an event leaves in the log. -/
def Event.record? : Event → Option (Area × Record)
  | log a r => some (a, r)
  | _ => none

/-- The records that events leave in the log. -/
def records (t : List Event) : List (Area × Record) := t.filterMap Event.record?

theorem records_append (s t : List Event) : records (s ++ t) = records s ++ records t :=
  List.filterMap_append

theorem records_of_foreign {t : List Event} (h : ∀ e ∈ t, e.IsForeign) : records t = [] := by
  refine List.filterMap_eq_nil_iff.2 fun e he => ?_
  cases e with
  | log a r => exact (h _ he).elim
  | _ => rfl

theorem course_advance_quiet (w : World) : ∃ t, Course w t w.advance ∧ records t = [] := by
  obtain ⟨t, ht, hforeign⟩ := course_advance w
  exact ⟨t, ht, records_of_foreign hforeign⟩

namespace Run

theorem course_log (a : Area) (r : Record) (w : World) :
    ∃ t, Course w t ((log a r).lastWorld w) ∧ records t = [(a, r)] := by
  obtain ⟨u, hu, hquiet⟩ := course_advance_quiet w
  refine ⟨_, hu.append (course_record w.advance a r), ?_⟩
  rw [records_append, hquiet]
  rfl

theorem ok_lastWorld {m : Run Unit} (h : m.Returns) (w : World) : m w = .ok () (m.lastWorld w) := by
  obtain ⟨_, w', hw⟩ := h w
  rw [lastWorld_of_ok hw, hw]

theorem course_logAll (a : Area) (rs : List Record) (w : World) :
    ∃ t, Course w t ((logAll a rs).lastWorld w) ∧ records t = rs.map (a, ·) := by
  induction rs generalizing w with
  | nil => exact ⟨[], .nil w, rfl⟩
  | cons r rest ih =>
    obtain ⟨s, hs, hr⟩ := course_log a r w
    obtain ⟨t, ht, hrest⟩ := ih ((log a r).lastWorld w)
    exact ⟨s ++ t, hs.append ht, by rw [records_append, hr, hrest]; rfl⟩

end Run

end Headend.Host

namespace Headend.Service

open Headend.Config
open Headend.Host
open Headend.Host.Run
open Headend.Text (Octets)

/-! ### The two readings of a file -/

/-- The record above the lines of a file. -/
def title : Record := .trace "Full configuration file :"

/-- The world in which a file that has been opened is read for the first time. -/
def firstReading (w : World) : World :=
  ((Run.log .configuration title).lastWorld w.advance).advance

/-- The world in which it is read again, when it held octets the first time. -/
def secondReading (shown : Octets) (w : World) : World :=
  ((Run.logAll .configuration (echoRecords shown)).lastWorld (firstReading w)).advance

section

variable {w : World} {path : String} {id : FileId} {shown bs : Octets}

/-- A file is shown as it is found first, and carried out as it is found then. -/
theorem course_parseFile (hfind : w.advance.files.find path = .ok (.file id))
    (hshown : (firstReading w).files.contentOf id = shown)
    (hbs : (secondReading shown w).files.contentOf id = bs) (chain : List Section) (d : Draft) :
    ∃ t w', parseFile chain d path w =
        .ok ⟨(parse chain d bs).result, (parse chain d bs).draft⟩ w' ∧ Course w t w' ∧
      records t =
        (title :: echoRecords shown ++ (parse chain d bs).records).map (.configuration, ·) := by
  -- The course goes through both looks at the file, each with the moment before it.
  obtain ⟨t₀, h₀, hr₀⟩ := course_advance_quiet w
  obtain ⟨t₁, h₁, hr₁⟩ := course_log .configuration title w.advance
  obtain ⟨t₂, h₂, hr₂⟩ :=
    course_advance_quiet ((Run.log .configuration title).lastWorld w.advance)
  obtain ⟨t₃, h₃, hr₃⟩ := course_logAll .configuration (echoRecords shown) (firstReading w)
  obtain ⟨t₄, h₄, hr₄⟩ := course_advance_quiet
    ((Run.logAll .configuration (echoRecords shown)).lastWorld (firstReading w))
  obtain ⟨t₅, h₅, hr₅⟩ :=
    course_logAll .configuration (parse chain d bs).records (secondReading shown w)
  refine ⟨t₀ ++ (t₁ ++ (t₂ ++ (t₃ ++ (t₄ ++ t₅)))),
    (logAll .configuration (parse chain d bs).records).lastWorld (secondReading shown w), ?_,
    h₀.append (h₁.append (h₂.append (h₃.append (h₄.append h₅)))), ?_⟩
  · have hopen : openForReading path w = .ok (.ok (.file id)) w.advance := by
      rw [← hfind]
      rfl
    have hread : ∀ w : World,
        readNode (.file id) w = .ok (.ok (w.advance.files.contentOf id)) w.advance := fun _ => rfl
    rw [parseFile, bind_of_ok hopen]
    dsimp only
    rw [bind_of_ok (ok_lastWorld (returns_log _ _) _), bind_of_ok (hread _)]
    change (logAll _ (echoRecords ((firstReading w).files.contentOf id)) >>= _) (firstReading w) = _
    rw [hshown, bind_of_ok (ok_lastWorld (returns_logAll _ _) _), bind_of_ok (hread _)]
    change carryOut _ _ ((secondReading shown w).files.contentOf id) (secondReading shown w) = _
    rw [hbs, carryOut, bind_of_ok (ok_lastWorld (returns_logAll _ _) _)]
    rfl
  · simp only [records_append, hr₀, hr₁, hr₂, hr₃, hr₄, hr₅, List.nil_append, List.map_cons,
      List.map_append, List.cons_append]

end

/-! ### Line after line -/

/-- How a configuration is read on a draft. -/
structure InSequence (chain : List Section) (d : Draft) : Prop where
  /-- A file that holds the same octets both times does what these octets do, after every line of
  them has been shown. -/
  file : ∀ (w : World) (path : String) (id : FileId) (bs : Octets),
    w.advance.files.find path = .ok (.file id) → (firstReading w).files.contentOf id = bs →
    (secondReading bs w).files.contentOf id = bs →
    ∃ t w', parseFile chain d path w =
        .ok ⟨(parse chain d bs).result, (parse chain d bs).draft⟩ w' ∧ Course w t w' ∧
      records t = (title :: ((lines bs).flatMap fun l => l.records ++ [l.echo]) ++
        (parse chain d bs).records).map (.configuration, ·)
  /-- The lines are counted from one. -/
  numbered : ∀ bs, (lines bs).map (·.number) = List.range' 1 (lines bs).length
  /-- Octets cut at a line feed are the one part and, unless it fails, then the other. -/
  cut : ∀ a b, (parse chain d (a ++ lineFeed :: b)).Agrees
    ((parse chain d a).andThen fun d' => parse chain d' b)
  /-- If a line fails, the draft is the one that the lines before it left. -/
  failed : ∀ bs e, (parse chain d bs).result = .error e →
    ∃ before l after, lines bs = before ++ l :: after ∧
      (parseLines chain d before).result = .ok () ∧
      (dispatch chain (parseLines chain d before).draft l.text).outcome = .error e ∧
      (parse chain d bs).draft = (parseLines chain d before).draft

theorem reading_inSequence (chain : List Section) (d : Draft) : InSequence chain d where
  file _ _ _ _ hfind hfirst hsecond := course_parseFile hfind hfirst hsecond chain d
  numbered bs := numbers_linesFrom 1 (segments bs)
  cut := parse_append chain d
  failed bs e h := by
    obtain ⟨before, l, after, hlines, hbefore, hl⟩ := parseLines_error_iff.1 h
    refine ⟨before, l, after, hlines, hbefore, hl, ?_⟩
    rw [parse, hlines]
    exact (parseLines_of_error hbefore hl).2

/-- A configuration whose second line fails. -/
def faulty : Octets := Text.octets "card = 1\r\nname = One\ncard = 2"

theorem reading_inSequence_faulty :
    let w : World := { files := { nodes := [(["d.conf"], .file 0)], contents := [faulty] } }
    ∃ t w', parseFile Section.all {} "d.conf" w =
        .ok ⟨.error (.noChannel "name"), { store := { tuning := { card := some 1 } } }⟩ w' ∧
      Course w t w' ∧
      records t = [title, .trace "001 card = 1", .trace "002 name = One",
        .trace "003 card = 2"].map (.configuration, ·) := by
  intro w
  have hparse : (parse Section.all {} faulty).result = .error (.noChannel "name") ∧
      (parse Section.all {} faulty).draft = { store := { tuning := { card := some 1 } } } ∧
      (parse Section.all {} faulty).records = [] := by
    decide +kernel
  obtain ⟨t, w', hw, ht, hrecords⟩ := (reading_inSequence Section.all {}).file w "d.conf" 0 faulty
    (by decide +kernel) (by decide +kernel) (by decide +kernel)
  rw [hparse.1, hparse.2.1] at hw
  refine ⟨t, w', hw, ht, ?_⟩
  rw [hrecords, hparse.2.2]
  decide +kernel

end Headend.Service
