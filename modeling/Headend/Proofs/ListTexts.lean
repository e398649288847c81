import Headend.Proofs.ChannelTexts
import Headend.Proofs.FileWriting

/-!
# What the lists of channels say

A list of channels has one line for each of its channels, in the order of the table: no text of a
channel of a configuration has a line feed, so no channel takes up more than its line. The two lists
share the channels out between them.

Facts: `readBack_listLine` (the lines of a list), `tellsAll_of_declared` (both lists of a
configuration).
-/

namespace Headend.Service

open Headend.Config
open Headend.Text (Octets octets)

/-! ### Lines of a list -/

/-- What a list says of a channel. -/
def listEntry (commonPort : UInt16) (c : Channel) : String :=
  let address := (c.ip4.or c.ip6).getD noAddress
  let port := (c.port.getD commonPort).toNat
  s!"{address}:{port}:{c.name}"

/-- The lines that are found in a file of lines, as they are told apart by line feeds. -/
def readBack (lines : List String) : List Octets := segments (textOf lines)

variable {commonPort : UInt16} {c : Channel} {cs : List Channel}

theorem octets_listLine (commonPort : UInt16) (c : Channel) :
    octets (listLine commonPort c) = octets (listEntry commonPort c) ++ [lineFeed] := by
  have hline : listLine commonPort c = listEntry commonPort c ++ "\n" := rfl
  rw [hline, Text.octets_eq_flatMap, String.toList_append, List.flatMap_append,
    ← Text.octets_eq_flatMap]
  rfl

theorem textOf_listLine_cons (commonPort : UInt16) (c : Channel) (cs : List Channel) :
    textOf ((c :: cs).map (listLine commonPort)) =
      octets (listEntry commonPort c) ++ lineFeed :: textOf (cs.map (listLine commonPort)) := by
  change octets (listLine commonPort c) ++ textOf (cs.map (listLine commonPort)) = _
  rw [octets_listLine, List.append_assoc]
  rfl

theorem feedless_append {s t : String} (hs : Feedless s.toList) (ht : Feedless t.toList) :
    Feedless (s ++ t).toList := by
  rw [String.toList_append, Feedless, List.mem_append, not_or]
  exact ⟨hs, ht⟩

/-- A number is written in digits and nothing else. -/
theorem notMem_toDigits {d : Char} (hd : d.isDigit = false) (n : Nat) : d ∉ Nat.toDigits 10 n := by
  intro h
  have hdigit := Nat.isDigit_of_mem_toDigits (by decide) (by decide) h
  rw [hd] at hdigit
  cases hdigit

theorem feedless_toString (n : Nat) : Feedless (toString n).toList := by
  rw [Nat.toString_eq_repr, Nat.toList_repr]
  exact notMem_toDigits (by decide) n

theorem feedless_address (h : c.IsFeedless) :
    Feedless ((c.ip4.or c.ip6).getD noAddress).toList := by
  cases h4 : c.ip4 with
  | some a => exact h.ip4 a h4
  | none =>
    cases h6 : c.ip6 with
    | some a => exact h.ip6 a h6
    | none => decide

theorem feedless_listEntry (h : c.IsFeedless) : Feedless (listEntry commonPort c).toList := by
  have hcolon : Feedless ":".toList := by decide
  exact feedless_append
    (feedless_append
      (feedless_append (feedless_append (feedless_address h) hcolon) (feedless_toString _)) hcolon)
    h.name

/-- A list has one line for each of its channels. -/
theorem readBack_listLine (h : ∀ c ∈ cs, c.IsFeedless) :
    readBack (cs.map (listLine commonPort)) =
      cs.map fun c => octets (listEntry commonPort c) := by
  unfold readBack
  induction cs with
  | nil => rfl
  | cons c rest ih =>
    obtain ⟨hc, hrest⟩ := List.forall_mem_cons.1 h
    have hentry : lineFeed ∉ octets (listEntry commonPort c) :=
      lineFeed_notMem_octets (feedless_listEntry hc)
    rw [textOf_listLine_cons, segments_append, segments_ended hentry, ih hrest]
    rfl

/-! ### Both lists -/

/-- What the lists of a store say of a channel. -/
def entryOf (s : Store) (c : Channel) : Octets := octets (listEntry s.multicast.commonPort c)

/-- The lines of the list of the channels that are streamed. -/
def streamedLines (s : Store) : List String :=
  s.channels.streamed.map (listLine s.multicast.commonPort)

/-- The lines of the list of the other channels. -/
def notStreamedLines (s : Store) : List String :=
  s.channels.notStreamed.map (listLine s.multicast.commonPort)

/-- The lists of a store tell of each of its channels once. -/
structure TellsAll (s : Store) : Prop where
  /-- A channel is ready if it has PIDs, and otherwise still waits for them. -/
  readiness : ∀ c ∈ s.channels.entries,
    c.readiness = if c.pids = [] then .almostReady else .ready
  /-- One list has a line for each channel that is ready, in the order of the table. -/
  streamed : readBack (streamedLines s) =
    (s.channels.entries.filter (·.readiness = .ready)).map (entryOf s)
  /-- The other list has a line for each of the others, in the order of the table. -/
  notStreamed : readBack (notStreamedLines s) =
    (s.channels.entries.filter (·.readiness ≠ .ready)).map (entryOf s)
  /-- The lines of both are those of all channels. -/
  once : (readBack (streamedLines s) ++ readBack (notStreamedLines s)).Perm
    (s.channels.entries.map (entryOf s))
  /-- There are as many lines as channels were published. -/
  published : s.channels.published =
    some ((readBack (streamedLines s)).length + (readBack (notStreamedLines s)).length)

theorem tellsAll_of_declared {s : Store} {chain : List Section} {bs : Octets}
    (h : s.channels = declared chain bs) : TellsAll s := by
  have hfeedless : ∀ c ∈ s.channels.entries, c.IsFeedless := fun c hc =>
    feedless_declared (h ▸ hc)
  have hstreamed : readBack (streamedLines s) = s.channels.streamed.map (entryOf s) :=
    readBack_listLine fun c hc => hfeedless c (List.mem_of_mem_filter hc)
  have hnotStreamed : readBack (notStreamedLines s) =
      s.channels.notStreamed.map (entryOf s) :=
    readBack_listLine fun c hc => hfeedless c (List.mem_of_mem_filter hc)
  have hperm : (s.channels.streamed ++ s.channels.notStreamed).Perm s.channels.entries :=
    List.filter_append_perm (fun c : Channel => c.readiness == .ready) s.channels.entries
  refine ⟨fun c hc => readiness_declared (h ▸ hc), ?_, ?_, ?_, ?_⟩
  · rw [hstreamed]
    rfl
  · rw [hnotStreamed]
    unfold ChannelTable.notStreamed
    congr 1
    refine List.filter_congr fun c _ => ?_
    rw [bne, decide_not]
    rfl
  · rw [hstreamed, hnotStreamed, ← List.map_append]
    exact hperm.map _
  · rw [hstreamed, hnotStreamed, List.length_map, List.length_map,
      ChannelTable.length_streamed_add_length_notStreamed, h]
    unfold declared
    rw [ChannelTable.length_freeze]
    rfl

end Headend.Service
