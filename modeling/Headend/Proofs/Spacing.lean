import Headend.Proofs.SectionOrder
import Headend.Proofs.Tokenwise
import Mathlib.Data.List.TakeWhile

/-!
# Blanks around the `=`

Reading a keyword takes one delimiter with it. Tokens are found behind any further ones. A whole
value starts behind the `=` only if at most one blank stands before it; of more blanks the rest is
taken for the value, which is then missing.

Facts: `Cursor.wholeValue_of_no_equals` and `Cursor.wholeValue_of_blanks` (what a whole value is),
`directiveLine?_of_assignment` (what is left of a line behind its keyword), `dispatch_assignment`.
-/

namespace Headend.Text

/-! ### Trimming -/

variable {bs cs : List Char}

theorem trim_of_blanks (h : ∀ c ∈ bs, isBlank c = true) : trim bs = [] := by
  rw [trim, List.dropWhile_eq_nil_iff.2 h]
  rfl

theorem trim_append_of_blanks (h : ∀ c ∈ bs, isBlank c = true) : trim (bs ++ cs) = trim cs := by
  rw [trim, List.dropWhile_append_of_pos h, trim]

theorem dropWhile_of_head? {p : Char → Bool} (h : ∀ c, cs.head? = some c → p c = false) :
    cs.dropWhile p = cs := by
  cases cs with
  | nil => rfl
  | cons c r => exact List.dropWhile_cons_of_neg (by simp [h c rfl])

theorem trim_eq_self (hfirst : ∀ c, cs.head? = some c → isBlank c = false)
    (hlast : ∀ c, cs.getLast? = some c → isBlank c = false) : trim cs = cs := by
  rw [trim, dropWhile_of_head? hfirst, trimEnd, dropWhile_of_head?, List.reverse_reverse]
  intro c hc
  exact hlast c (by rwa [← List.head?_reverse])

end Headend.Text

namespace Headend.Config

/-! ### Pieces of a line -/

namespace Cursor

variable {bs cs : List Char}

/-- A piece that nothing ends is all that is left. -/
theorem splitOff_of_forall {isEnd : Char → Bool} (hne : cs ≠ [])
    (h : ∀ c ∈ cs, isEnd c = false) : splitOff isEnd cs = some (cs, []) := by
  have hstart : cs.dropWhile isEnd = cs :=
    Text.dropWhile_of_head? fun c hc => h c (List.mem_of_head? hc)
  have hall : ∀ c ∈ cs, (!isEnd c) = true := fun c hc => by rw [h c hc]; rfl
  refine splitOff_eq_some_iff.2 ⟨?_, ?_, ?_⟩
  · rwa [hstart]
  · rw [hstart, List.takeWhile_eq_self_iff.2 hall]
  · rw [hstart, List.dropWhile_eq_nil_iff.2 hall, List.tail_nil]

/-- A piece reaches up to the first character that ends one. -/
theorem splitOff_append_cons {isEnd : Char → Bool} {e : Char} (hne : bs ≠ [])
    (h : ∀ c ∈ bs, isEnd c = false) (he : isEnd e = true) :
    splitOff isEnd (bs ++ e :: cs) = some (bs, cs) := by
  have hstart : (bs ++ e :: cs).dropWhile isEnd = bs ++ e :: cs := by
    refine Text.dropWhile_of_head? fun c hc => h c ?_
    rw [List.head?_append_of_ne_nil _ hne] at hc
    exact List.mem_of_head? hc
  have hall : ∀ c ∈ bs, (!isEnd c) = true := fun c hc => by rw [h c hc]; rfl
  refine splitOff_eq_some_iff.2 ⟨?_, ?_, ?_⟩
  · rw [hstart]
    exact List.append_ne_nil_of_left_ne_nil hne _
  · rw [hstart, List.takeWhile_append_of_pos hall, List.takeWhile_cons_of_neg (by simp [he]),
      List.append_nil]
  · rw [hstart, List.dropWhile_append_of_pos hall, List.dropWhile_cons_of_neg (by simp [he]),
      List.tail_cons]

theorem isEquals_of_ne {c : Char} (h : c ≠ '=') : isEquals c = false := by
  simp [isEquals, h]

/-- Without a further `=`, the whole value is all that is left but the blanks around it. -/
theorem wholeValue_of_no_equals (hcs : '=' ∉ cs) (hne : Text.trim cs ≠ []) :
    wholeValue ⟨cs⟩ = (some (String.ofList (Text.trim cs)), ⟨[]⟩) := by
  have hcs' : cs ≠ [] := by
    rintro rfl
    exact hne rfl
  have hsplit : splitOff isEquals cs = some (cs, []) :=
    splitOff_of_forall hcs' fun c hc => isEquals_of_ne fun he => hcs (he ▸ hc)
  unfold wholeValue
  simp only [hsplit, if_neg hne]

/-- An `=` at the front is passed over. -/
theorem wholeValue_equals (cs : List Char) : wholeValue ⟨'=' :: cs⟩ = wholeValue ⟨cs⟩ := by
  have hsplit : splitOff isEquals ('=' :: cs) = splitOff isEquals cs := by
    unfold splitOff
    rw [List.dropWhile_cons_of_pos (by decide)]
  unfold wholeValue
  simp only [hsplit]

/-- Of blanks up to an `=` no value is left. -/
theorem wholeValue_of_blanks (hne : bs ≠ []) (hbs : ∀ b ∈ bs, Text.isBlank b = true) :
    wholeValue ⟨bs ++ '=' :: cs⟩ = (none, ⟨cs⟩) := by
  have hsplit : splitOff isEquals (bs ++ '=' :: cs) = some (bs, cs) := by
    refine splitOff_append_cons hne (fun b hb => isEquals_of_ne ?_) (by decide)
    rintro rfl
    exact absurd (hbs _ hb) (by decide)
  unfold wholeValue
  simp only [hsplit, Text.trim_of_blanks hbs, if_pos]

end Cursor

/-! ### What is left of a line behind its keyword -/

/-- A text of spaces and tabs. -/
def IsGap (w : String) : Prop := ∀ c ∈ w.toList, c = ' ' ∨ c = '\t'

/-- A text that can stand as a value: it has no `=`, and no blank at either end. -/
structure IsValue (v : String) : Prop where
  ne_nil : v.toList ≠ []
  no_equals : '=' ∉ v.toList
  first : ∀ c, v.toList.head? = some c → Text.isBlank c = false
  last : ∀ c, v.toList.getLast? = some c → Text.isBlank c = false

/-- What is left of an assignment behind its keyword and the delimiter after it. -/
def afterKeyword (w₁ w₂ v : String) : Cursor := ⟨(w₁.toList ++ '=' :: (w₂.toList ++ v.toList)).tail⟩

variable {k w₁ w₂ v : String}

theorem IsGap.isBlank (h : IsGap w₁) : ∀ c ∈ w₁.toList, Text.isBlank c = true := by
  intro c hc
  rcases h c hc with rfl | rfl <;> decide

theorem IsGap.isDelimiter (h : IsGap w₁) : ∀ c ∈ w₁.toList, Cursor.isDelimiter c = true := by
  intro c hc
  rcases h c hc with rfl | rfl <;> decide

theorem isGap_empty : IsGap "" := fun c hc => by simp at hc

theorem IsValue.trim_eq (h : IsValue v) : Text.trim v.toList = v.toList :=
  Text.trim_eq_self h.first h.last

/-- A line that does not end in a blank has no end of line to lose. -/
theorem IsValue.stripEnds_append (h : IsValue v) (a : List Char) :
    stripEnds (a ++ v.toList) = a ++ v.toList := by
  rw [stripEnds, Text.dropWhile_of_head?, List.reverse_reverse]
  intro c hc
  rw [List.head?_reverse, List.getLast?_append_of_ne_nil _ h.ne_nil] at hc
  have hblank := h.last c hc
  by_contra hend
  simp only [Bool.not_eq_false, Bool.or_eq_true, beq_iff_eq] at hend
  rcases hend with rfl | rfl <;> exact absurd hblank (by decide)

/-- Whether a text can be read as a keyword: it is not empty, no comment, and no delimiter stands in
it. -/
def isReadable (cs : List Char) : Bool :=
  !cs.isEmpty && cs.head? != some '#' && cs.all (!Cursor.isDelimiter ·)

theorem Section.keywords_readable : keywords.all (isReadable ·.toList) = true := by
  decide +kernel

theorem Section.keyword_readable (hk : k ∈ keywords) : k.toList ≠ [] ∧
    k.toList.head? ≠ some '#' ∧ ∀ c ∈ k.toList, Cursor.isDelimiter c = false := by
  have hread := List.all_eq_true.1 keywords_readable k hk
  simpa [isReadable, and_assoc] using hread

theorem directiveLine?_of_keyword (hne : k.toList ≠ []) (hhash : k.toList.head? ≠ some '#')
    (hk : ∀ c ∈ k.toList, Cursor.isDelimiter c = false) {b : Char} {rest : List Char}
    (hb : Cursor.isDelimiter b = true) (heq : '=' ∈ b :: rest) :
    directiveLine? (k.toList ++ b :: rest) = some (k, ⟨rest⟩) := by
  have hnext : Cursor.next ⟨k.toList ++ b :: rest⟩ = (some k, ⟨rest⟩) := by
    unfold Cursor.next
    simp only [Cursor.splitOff_append_cons hne hk hb, String.ofList_toList]
  have hcontains : (k.toList ++ b :: rest).contains '=' = true :=
    List.contains_iff_mem.2 (List.mem_append_right _ heq)
  unfold directiveLine?
  rw [if_neg (by rwa [List.head?_append_of_ne_nil _ hne]), hnext]
  simp only [if_neg hhash, hcontains, Bool.not_true, Bool.false_and, Bool.false_eq_true, if_false]

theorem directiveLine?_of_assignment (hk : k ∈ Section.keywords) (hw₁ : IsGap w₁)
    (hv : IsValue v) :
    directiveLine? (stripEnds (k ++ w₁ ++ "=" ++ w₂ ++ v).toList) =
      some (k, afterKeyword w₁ w₂ v) := by
  obtain ⟨hne, hhash, hclean⟩ := Section.keyword_readable hk
  have htext : (k ++ w₁ ++ "=" ++ w₂ ++ v).toList =
      k.toList ++ (w₁.toList ++ '=' :: (w₂.toList ++ v.toList)) := by
    simp
  have hstrip : stripEnds (k ++ w₁ ++ "=" ++ w₂ ++ v).toList =
      k.toList ++ (w₁.toList ++ '=' :: (w₂.toList ++ v.toList)) := by
    rw [← htext, String.toList_append, hv.stripEnds_append]
  rw [hstrip, afterKeyword]
  cases hgap : w₁.toList with
  | nil => exact directiveLine?_of_keyword hne hhash hclean (by decide) List.mem_cons_self
  | cons b w =>
    have hb : Cursor.isDelimiter b = true := hw₁.isDelimiter b (hgap ▸ List.mem_cons_self)
    exact directiveLine?_of_keyword hne hhash hclean hb (by simp)

/-- The tokens are those of the value, whatever stands before it. -/
theorem sameTokens_afterKeyword (hw₁ : IsGap w₁) (hw₂ : IsGap w₂) :
    (afterKeyword w₁ w₂ v).SameTokens ⟨v.toList⟩ := by
  have hbefore : ∀ c ∈ w₁.toList ++ '=' :: w₂.toList, Cursor.isDelimiter c = true :=
    List.forall_mem_append.2 ⟨hw₁.isDelimiter, List.forall_mem_cons.2 ⟨by decide, hw₂.isDelimiter⟩⟩
  have htail : afterKeyword w₁ w₂ v = ⟨(w₁.toList ++ '=' :: w₂.toList).tail ++ v.toList⟩ := by
    unfold afterKeyword
    rw [← List.tail_append_of_ne_nil (by simp)]
    simp
  rw [htail]
  exact Cursor.sameTokens_append fun c hc => hbefore c (List.mem_of_mem_tail hc)

/-- Behind at most one blank the whole value is the value. -/
theorem wholeValue_of_short (hw₁ : w₁.length < 2) (hw₂ : IsGap w₂) (hv : IsValue v) :
    (afterKeyword w₁ w₂ v).wholeValue = (some v, ⟨[]⟩) := by
  have hvalue : Cursor.wholeValue ⟨w₂.toList ++ v.toList⟩ = (some v, ⟨[]⟩) := by
    have htrim : Text.trim (w₂.toList ++ v.toList) = v.toList :=
      (Text.trim_append_of_blanks hw₂.isBlank).trans hv.trim_eq
    rw [Cursor.wholeValue_of_no_equals, htrim, String.ofList_toList]
    · rw [List.mem_append, not_or]
      exact ⟨fun hmem => absurd (hw₂.isBlank _ hmem) (by decide), hv.no_equals⟩
    · rw [htrim]
      exact hv.ne_nil
  rw [← String.length_toList] at hw₁
  unfold afterKeyword
  match hgap : w₁.toList with
  | [] => exact hvalue
  | [b] => exact (Cursor.wholeValue_equals _).trans hvalue
  | b :: b' :: w =>
    simp only [hgap, List.length_cons] at hw₁
    omega

/-- Behind more blanks it is what is left of them, and so there is none. -/
theorem wholeValue_of_long (hw₁ : IsGap w₁) (hlong : 2 ≤ w₁.length) :
    (afterKeyword w₁ w₂ v).wholeValue = (none, ⟨w₂.toList ++ v.toList⟩) := by
  rw [← String.length_toList] at hlong
  unfold afterKeyword
  match hgap : w₁.toList with
  | [] => simp [hgap] at hlong
  | [b] => simp [hgap] at hlong
  | b :: b' :: w =>
    have hblanks : ∀ c ∈ b' :: w, Text.isBlank c = true := fun c hc =>
      hw₁.isBlank c (hgap ▸ List.mem_cons_of_mem b hc)
    exact Cursor.wholeValue_of_blanks (List.cons_ne_nil b' w) hblanks

/-! ### Assignments -/

section

variable {chain : List Section} {raw raw' : String} {rest rest' : Cursor} {s : Section}
  {dir : Directive} {d : Draft}

theorem dispatch_of_owner (hl : directiveLine? (stripEnds raw.toList) = some (k, rest))
    (ho : owner? chain k = some (s, dir)) :
    dispatch chain d raw =
      match (dir.apply k d rest).result with
      | .ok d' => ⟨.ok (.handled s), d', (dir.apply k d rest).records⟩
      | .error e => ⟨.error e, d, (dir.apply k d rest).records⟩ := by
  cases hr : (dir.apply k d rest).result with
  | ok d' => simp only [dispatch_eq, hl, ho, hr]
  | error e => simp only [dispatch_eq, hl, ho, hr]

theorem dispatch_of_sameEffect (hl : directiveLine? (stripEnds raw.toList) = some (k, rest))
    (hl' : directiveLine? (stripEnds raw'.toList) = some (k, rest'))
    (ho : owner? chain k = some (s, dir))
    (h : (dir.apply k d rest).SameEffect (dir.apply k d rest')) :
    dispatch chain d raw = dispatch chain d raw' := by
  rw [dispatch_of_owner hl ho, dispatch_of_owner hl' ho, h.result, h.records]

end

/-- Whether the blanks before an `=` are taken for the value: the keyword takes a whole value, and
there is more than one blank. Without a channel the name is not looked at. -/
def Misread (d : Draft) (k w₁ : String) : Prop :=
  2 ≤ w₁.length ∧ k ∈ wholeKeywords ∧ (k = "name" → d.openedChannel.isSome)

/-- What blanks around the `=` of an assignment mean. -/
structure Spacing (d : Draft) (k w₁ w₂ v : String) : Prop where
  /-- Nothing, if they are not misread. -/
  same : ¬Misread d k w₁ →
    dispatch Section.all d (k ++ w₁ ++ "=" ++ w₂ ++ v) = dispatch Section.all d (k ++ "=" ++ v)
  /-- If they are, the value is lost, and the line fails in spite of it. -/
  lost : Misread d k w₁ →
    dispatch Section.all d (k ++ w₁ ++ "=" ++ w₂ ++ v) = ⟨.error (.missingValue k), d, []⟩ ∧
      ∃ s, (dispatch Section.all d (k ++ "=" ++ v)).outcome = .ok (.handled s)

theorem dispatch_assignment (d : Draft) (hk : k ∈ Section.keywords) (hw₁ : IsGap w₁)
    (hw₂ : IsGap w₂) (hv : IsValue v) : Spacing d k w₁ w₂ v := by
  obtain ⟨s, hs, hmem⟩ := List.mem_flatMap.1 hk
  obtain ⟨dir, hdir⟩ := Section.mem_keys_iff.1 hmem
  have ho : owner? Section.all k = some (s, dir) := owner?_eq_some_iff.2 ⟨hs, hdir⟩
  have hreads := s.reads_vocabulary _ (Section.mem_vocabulary hdir)
  have hl : directiveLine? (stripEnds (k ++ w₁ ++ "=" ++ w₂ ++ v).toList) =
      some (k, afterKeyword w₁ w₂ v) := directiveLine?_of_assignment hk hw₁ hv
  have hl' : directiveLine? (stripEnds (k ++ "=" ++ v).toList) =
      some (k, afterKeyword "" "" v) := by
    have htext : k ++ "=" ++ v = k ++ "" ++ "=" ++ "" ++ v := by
      rw [String.append_empty, String.append_empty]
    rw [htext]
    exact directiveLine?_of_assignment hk isGap_empty hv
  have hshort : (afterKeyword "" "" v).wholeValue = (some v, ⟨[]⟩) :=
    wholeValue_of_short (by decide) isGap_empty hv
  by_cases hwhole : k ∈ wholeKeywords
  · rw [Directive.Reads, if_pos hwhole] at hreads
    obtain ⟨htakes, htarget⟩ := hreads
    have hplace : dir.HasPlace d ↔ (k = "name" → d.openedChannel.isSome) := by
      unfold Directive.HasPlace
      rw [htarget]
    refine ⟨fun hread => dispatch_of_sameEffect hl hl' ho ?_, fun hmisread => ?_⟩
    · by_cases hlong : w₁.length < 2
      · have hvalue := wholeValue_of_short hlong hw₂ hv
        exact Directive.apply_of_findsSame
          (Directive.findsSame_of_wholeValue_eq htakes (hvalue.trans hshort.symm)) k d
      · refine Directive.apply_of_no_place (fun hp => hread ?_) k
        exact ⟨Nat.not_lt.1 hlong, hwhole, hplace.1 hp⟩
    · obtain ⟨hlong, -, hp⟩ := hmisread
      have hnone := Directive.apply_of_no_value htakes (hplace.2 hp)
        (wholeValue_of_long hw₁ hlong : (afterKeyword w₁ w₂ v).wholeValue = _) k
      obtain ⟨d', hsome⟩ := Directive.apply_of_value htakes (hplace.2 hp) hshort k
      rw [dispatch_of_owner hl ho, dispatch_of_owner hl' ho, hnone, hsome]
      exact ⟨rfl, s, rfl⟩
  · rw [Directive.Reads, if_neg hwhole] at hreads
    refine ⟨fun _ => dispatch_of_sameEffect hl hl' ho ?_, fun h => absurd h.2.1 hwhole⟩
    have htokens : (afterKeyword w₁ w₂ v).SameTokens (afterKeyword "" "" v) :=
      (sameTokens_afterKeyword hw₁ hw₂).trans (sameTokens_afterKeyword isGap_empty isGap_empty).symm
    exact Directive.apply_of_findsSame (Directive.findsSame_of_tokenwise hreads htokens) k d

/-- A draft with one channel, which is open. -/
def unnamed : Draft := { store := { channels := { entries := [{}] } }, current := some 0 }

/-- A list of PIDs and a name, behind two blanks. -/
theorem dispatch_assignment_aligned :
    "pids" ∈ Section.keywords ∧ "name" ∈ Section.keywords ∧ IsGap "  " ∧ IsGap "\t" ∧
      IsValue "100 200" ∧ ¬Misread unnamed "pids" "  " ∧ Misread unnamed "name" "  " ∧
      Spacing unnamed "pids" "  " "\t" "100 200" ∧ Spacing unnamed "name" "  " "\t" "100 200" := by
  have hpids : "pids" ∈ Section.keywords := by decide +kernel
  have hname : "name" ∈ Section.keywords := by decide +kernel
  have hgap : IsGap "  " := by simp [IsGap]
  have hgap' : IsGap "\t" := by simp [IsGap]
  have hvalue : IsValue "100 200" := ⟨by simp, by simp, by simp; decide, by simp; decide⟩
  refine ⟨hpids, hname, hgap, hgap', hvalue, ?_, ?_, ?_, ?_⟩
  · simp [Misread, wholeKeywords]
  · exact ⟨by decide, by simp [wholeKeywords], fun _ => rfl⟩
  · exact dispatch_assignment unnamed hpids hgap hgap' hvalue
  · exact dispatch_assignment unnamed hname hgap hgap' hvalue

/-- Blanks around the `=` do not mean nothing in every line: behind two of them a name is missing. -/
theorem not_spacingIsFree :
    ¬∀ (d : Draft) (k w₁ w₂ v : String), k ∈ Section.keywords → IsGap w₁ → IsGap w₂ → IsValue v →
      dispatch Section.all d (k ++ w₁ ++ "=" ++ w₂ ++ v) =
        dispatch Section.all d (k ++ "=" ++ v) := by
  intro h
  have hvalue : IsValue "One" := ⟨by simp, by simp, by simp; decide, by simp; decide⟩
  have hsame := h unnamed "name" "  " " " "One" (by decide +kernel) (by simp [IsGap])
    (by simp [IsGap]) hvalue
  have hother : (dispatch Section.all unnamed ("name" ++ "  " ++ "=" ++ " " ++ "One")).outcome ≠
      (dispatch Section.all unnamed ("name" ++ "=" ++ "One")).outcome := by
    decide +kernel
  exact hother (congrArg Dispatched.outcome hsame)

end Headend.Config
