import Headend.Proofs.CharacterBoundaries
import Headend.Proofs.Spacing

/-!
# Names of channels

A line that names the open channel stores the longest initial part of the name that fits into 255
octets, and nothing else of the draft changes. The warning starts one octet too early: a name of
exactly 255 octets is stored in full and reported as too long all the same. Only there does the
warning not tell whether the name was cut.

Facts: `dispatch_nameLine_eq` (what the line does), `longestPrefix_cutName` (what is stored),
`nameRecords_eq` (when the warning comes), `dispatch_nameLine`.
-/

namespace Headend.Config

/-- The line that names a channel. -/
def nameLine (r : String) : String := "name" ++ "=" ++ r

/-- The warning about a name. -/
def longName : Record := .warn "Channel name too long"

/-- A channel with a name that the configuration gave. -/
def Channel.withName (ch : Channel) (name : String) : Channel :=
  { ch with name := name, userName := name, nameUserSet := true }

/-- A draft in which the channel at an index is replaced. -/
def Draft.withChannel (d : Draft) (i : Nat) (ch : Channel) : Draft :=
  { d with store := { d.store with channels := d.store.channels.set i ch } }

variable {d : Draft} {i : Nat} {ch : Channel} {r : String}

/-! ### The line -/

/-- The directive of a name. -/
def nameDirective : Directive :=
  channelDirective (Reader.setSaying Reader.whole (fun v c => c.withName (cutName v)) nameRecords)

theorem owner?_name : owner? Section.all "name" = some (.main, nameDirective) := rfl

/-- The line of a name changes the channel that is open, and leaves the records of the name. -/
theorem dispatch_nameLine_eq (hopen : d.openedChannel = some (i, ch)) (hr : IsValue r) :
    dispatch Section.all d (nameLine r) =
      ⟨.ok (.handled .main), d.withChannel i (ch.withName (cutName r)), nameRecords r⟩ := by
  have hkeyword : "name" ∈ Section.keywords := by decide +kernel
  have hline : directiveLine? (stripEnds (nameLine r).toList) =
      some ("name", afterKeyword "" "" r) := by
    have htext : nameLine r = "name" ++ "" ++ "=" ++ "" ++ r := by
      rw [nameLine, String.append_empty, String.append_empty]
    rw [htext]
    exact directiveLine?_of_assignment hkeyword isGap_empty hr
  have hvalue : (afterKeyword "" "" r).wholeValue = (some r, ⟨[]⟩) :=
    wholeValue_of_short (by decide) isGap_empty hr
  have hwhole : ∀ site, Reader.whole.run site (afterKeyword "" "" r) = .ok r ⟨[]⟩ := by
    intro site
    unfold Reader.run Reader.whole
    rw [hvalue]
  rw [dispatch_of_owner hline owner?_name]
  simp only [nameDirective, channelDirective, Directive.apply, hopen, Directive.readChange,
    Reader.setSaying, Reader.run_bind, hwhole]
  rfl

/-! ### The name and the warning -/

theorem longestPrefix_cutName (r : String) :
    Text.LongestPrefix 255 (cutName r).toList r.toList := by
  rw [cutName, String.toList_ofList]
  exact .takeSize 255 r.toList

theorem cutName_eq_self_iff : cutName r = r ↔ Text.size r.toList ≤ 255 := by
  rw [← String.toList_inj, cutName, String.toList_ofList]
  constructor
  · intro h
    rw [← h]
    exact Text.size_takeSize 255 r.toList
  · exact Text.takeSize_of_size_le

theorem nameRecords_eq (r : String) :
    nameRecords r = if cutName r ≠ r ∨ Text.size r.toList = 255 then [longName] else [] := by
  have hlimit : maxNameSize ≤ Text.size r.toList ↔ cutName r ≠ r ∨ Text.size r.toList = 255 := by
    rw [ne_eq, cutName_eq_self_iff]
    unfold maxNameSize
    omega
  rw [nameRecords]
  simp only [hlimit]
  rfl

/-! ### What the line does -/

/-- What the line of a name does to a draft in which a channel is open. -/
structure Naming (d : Draft) (i : Nat) (ch : Channel) (r : String) : Prop where
  /-- The line is handled. -/
  outcome : (dispatch Section.all d (nameLine r)).outcome = .ok (.handled .main)
  /-- The name is stored twice, and all else stays. -/
  draft : (dispatch Section.all d (nameLine r)).draft = d.withChannel i (ch.withName (cutName r))
  /-- The channel that is open has that name then. -/
  opened : (dispatch Section.all d (nameLine r)).draft.openedChannel =
    some (i, ch.withName (cutName r))
  /-- What is stored is the longest initial part of 255 octets or fewer. -/
  cut : Text.LongestPrefix 255 (cutName r).toList r.toList
  /-- The search for a boundary, which is made for longer names, ends within the name, and what is
  stored ends there. -/
  search : 255 < (Text.octets r).length → ∃ n, Text.boundaryBelow (Text.octets r) 255 = some n ∧
    n < (Text.octets r).length ∧ Text.octets (cutName r) = (Text.octets r).take n
  /-- There is a warning if the name was cut, and also if it just fits. -/
  records : (dispatch Section.all d (nameLine r)).records =
    if cutName r ≠ r ∨ (Text.octets r).length = 255 then [longName] else []

theorem openedChannel_withChannel (hopen : d.openedChannel = some (i, ch)) (ch' : Channel) :
    (d.withChannel i ch').openedChannel = some (i, ch') := by
  obtain ⟨hcurrent, hentry⟩ := openedChannel_eq_some hopen
  have hlt : i < d.store.channels.entries.length := (List.getElem?_eq_some_iff.1 hentry).1
  simp [Draft.openedChannel, Draft.withChannel, ChannelTable.set, hcurrent, hlt]

theorem dispatch_nameLine (hopen : d.openedChannel = some (i, ch)) (hr : IsValue r) :
    Naming d i ch r := by
  have hcut := longestPrefix_cutName r
  have hdispatch := dispatch_nameLine_eq hopen hr
  refine ⟨by rw [hdispatch], by rw [hdispatch], ?_, hcut, fun hlong => ?_, ?_⟩
  · rw [hdispatch]
    exact openedChannel_withChannel hopen _
  · refine ⟨_, hcut.boundaryBelow, Nat.lt_of_le_of_lt hcut.fits hlong, ?_⟩
    rw [← Text.length_octets]
    exact Text.octets_of_prefix hcut.initial
  · rw [hdispatch, nameRecords_eq, Text.length_octets]

/-! ### At the limit -/

theorem isValue_of_forall (hne : r.toList ≠ [])
    (h : ∀ c ∈ r.toList, c ≠ '=' ∧ Text.isBlank c = false) : IsValue r where
  ne_nil := hne
  no_equals hmem := (h _ hmem).1 rfl
  first c hc := (h c (List.mem_of_head? hc)).2
  last c hc := (h c (List.mem_of_getLast? hc)).2

/-- A name of 258 octets, of which the 255th is the first of a character of two. -/
def overlongName : String := String.ofList (List.replicate 254 'x' ++ ['é', 'é'])

/-- A name of so many octets. -/
def plainName (n : Nat) : String := String.ofList (List.replicate n 'x')

theorem isValue_overlongName : IsValue overlongName := by
  have htext : overlongName.toList = List.replicate 254 'x' ++ ['é', 'é'] := String.toList_ofList
  refine isValue_of_forall ?_ fun c hc => ?_
  · rw [htext]
    exact List.append_ne_nil_of_right_ne_nil _ (List.cons_ne_nil _ _)
  · rw [htext] at hc
    rcases List.mem_append.1 hc with hx | he
    · rw [List.eq_of_mem_replicate hx]
      decide
    · have hc : c = 'é' := by simpa using he
      rw [hc]
      decide

section

variable {n : Nat}

theorem mem_plainName {c : Char} (hc : c ∈ (plainName n).toList) : c = 'x' := by
  rw [plainName, String.toList_ofList] at hc
  exact List.eq_of_mem_replicate hc

theorem size_plainName (n : Nat) : Text.size (plainName n).toList = n := by
  rw [plainName, String.toList_ofList]
  induction n with
  | zero => rfl
  | succ n ih =>
    have hx : 'x'.utf8Size = 1 := rfl
    rw [List.replicate_succ, Text.size_cons, ih, hx, Nat.add_comm]

theorem isValue_plainName (hn : 0 < n) : IsValue (plainName n) := by
  refine isValue_of_forall ?_ fun c hc => ?_
  · intro hnil
    have hsize := size_plainName n
    rw [hnil, Text.size_nil] at hsize
    omega
  · rw [mem_plainName hc]
    decide

end

/-- A name that is cut before the character that does not fit. -/
theorem dispatch_nameLine_overlong :
    unnamed.openedChannel = some (0, {}) ∧ IsValue overlongName ∧
      Naming unnamed 0 {} overlongName :=
  ⟨rfl, isValue_overlongName, dispatch_nameLine rfl isValue_overlongName⟩

/-- Names are not reported as too long exactly if they are cut: one of 255 octets is stored as it
is, with a warning. -/
theorem not_warnedExactlyIfCut :
    ¬∀ (d : Draft) (i : Nat) (ch : Channel) (r : String), d.openedChannel = some (i, ch) →
      IsValue r → '\r' ∉ r.toList → '\n' ∉ r.toList →
      (longName ∈ (dispatch Section.all d (nameLine r)).records ↔
        ∃ ch', (dispatch Section.all d (nameLine r)).draft.openedChannel = some (i, ch') ∧
          ch'.name ≠ r) := by
  intro h
  have hvalue : IsValue (plainName 255) := isValue_plainName (by decide)
  have hsize : Text.size (plainName 255).toList = 255 := size_plainName 255
  have hstored : cutName (plainName 255) = plainName 255 :=
    cutName_eq_self_iff.2 (Nat.le_of_eq hsize)
  have hopen : unnamed.openedChannel = some (0, {}) := rfl
  have hiff := h unnamed 0 {} (plainName 255) hopen hvalue
    (fun hr => absurd (mem_plainName hr) (by decide))
    (fun hn => absurd (mem_plainName hn) (by decide))
  rw [dispatch_nameLine_eq hopen hvalue, nameRecords_eq, if_pos (.inr hsize)] at hiff
  obtain ⟨ch', hch', hne⟩ := hiff.1 List.mem_cons_self
  rw [openedChannel_withChannel hopen, hstored] at hch'
  obtain ⟨-, rfl⟩ := Prod.mk.inj (Option.some.inj hch')
  exact hne rfl

end Headend.Config
