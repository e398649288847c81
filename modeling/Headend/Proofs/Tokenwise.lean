import Headend.Proofs.LineEffects

/-!
# How values are read

Most values are read token by token, and tokens are the same however many delimiters stand before
them. Four keywords take a whole value instead, up to the next `=`. What a directive does only
depends on what its reader finds, and a directive about a channel finds nothing without one.

Facts: `Reader.tokenwise_bind` and `Reader.tokenwise_fold` (readers that only see tokens),
`Section.reads_vocabulary` (how the value of each keyword is read), `Directive.apply_of_findsSame`,
`Directive.apply_of_value` and `Directive.apply_of_no_value` (what directives do with it).
-/

namespace Headend.Config

/-! ### Cursors -/

namespace Cursor

/-- Whether the same tokens are left at two cursors. -/
def SameTokens (c c' : Cursor) : Prop :=
  c.rest.dropWhile isDelimiter = c'.rest.dropWhile isDelimiter

variable {c c' : Cursor} {bs cs : List Char}

theorem next_of_sameTokens (h : c.SameTokens c') : c.next = c'.next := by
  unfold next splitOff
  rw [h]

theorem length_next_lt {token : String} {left : Cursor} (h : c.next = (some token, left)) :
    left.rest.length < c.rest.length := by
  unfold next at h
  split at h
  · rename_i piece rest hsplit
    cases h
    exact length_splitOff_lt hsplit
  · cases h

theorem sameTokens_append (h : ∀ b ∈ bs, isDelimiter b = true) :
    SameTokens ⟨bs ++ cs⟩ ⟨cs⟩ :=
  List.dropWhile_append_of_pos h

end Cursor

/-! ### Readers -/

namespace Reader

/-- A reader that only sees the tokens that are left. -/
def Tokenwise (r : Reader α) : Prop :=
  ∀ site c c', Cursor.SameTokens c c' → r.run site c = r.run site c'

/-- A reader that takes nothing from the line. -/
def Idle (r : Reader α) : Prop := ∀ site c v left, r.run site c = .ok v left → left = c

/-- A reader whose value is made of a whole value. -/
def TakesWhole (r : Reader α) : Prop := ∃ f : String → α, r = f <$> whole

section

variable {r s : Reader α}

@[simp] theorem tokenwise_next : next.Tokenwise := by
  intro site c c' h
  unfold run next
  rw [Cursor.next_of_sameTokens h]

/-- What comes after the first token starts where this one ended. -/
theorem tokenwise_bind {f : α → Reader β} (hr : r.Tokenwise) : (r >>= f).Tokenwise := by
  intro site c c' h
  rw [run_bind, run_bind, hr site c c' h]

theorem tokenwise_map {f : α → β} (hr : r.Tokenwise) : (f <$> r).Tokenwise := tokenwise_bind hr

theorem tokenwise_read {f : Site → Reader β} (hf : ∀ site, (f site).Tokenwise) :
    (read >>= f).Tokenwise :=
  fun site c c' h => hf site site c c' h

@[simp] theorem tokenwise_word : word.Tokenwise := tokenwise_bind tokenwise_next

theorem idle_pure (v : α) : (pure v : Reader α).Idle := by
  rintro site c _ _ ⟨⟩
  rfl

theorem idle_orBad (raw : String) (o : Option α) : (orBad raw o).Idle := by
  cases o with
  | some v => exact idle_pure v
  | none =>
    rintro site c v left h
    cases h

theorem idle_bind {f : α → Reader β} (hr : r.Idle) (hf : ∀ v, (f v).Idle) : (r >>= f).Idle := by
  intro site c v left h
  rw [run_bind] at h
  cases hw : r.run site c with
  | error e mid => rw [hw] at h; cases h
  | ok w mid =>
    rw [hw] at h
    rw [hf w site mid v left h, hr site c w mid hw]

theorem idle_ite {p : Prop} [Decidable p] (hr : r.Idle) (hs : s.Idle) :
    (if p then r else s).Idle := by
  split
  · exact hr
  · exact hs

/-- Nothing comes after a failure. -/
theorem idle_throw (e : ConfigError) (g : PUnit → Reader α) : (throw e >>= g).Idle := by
  intro site c v left h
  cases h

theorem idle_failure (e : Site → ConfigError) (g : PUnit → Reader α) :
    (read >>= fun site : Site => throw (e site) >>= g).Idle := by
  intro site c v left h
  cases h

end

/-! ### Working over the tokens -/

section

variable {f : α → String → Reader α}

theorem foldRounds_succ (rounds : Nat) (a : α) (site : Site) (c : Cursor) :
    (foldRounds f (rounds + 1) a).run site c =
      match c.next with
      | (none, left) => .ok a left
      | (some raw, left) => (f a raw >>= foldRounds f rounds).run site left := by
  rw [foldRounds, run_bind]
  unfold run next
  cases hc : c.next with
  | mk t left => cases t <;> rfl

theorem foldRounds_nil (rounds : Nat) (a : α) (site : Site) :
    (foldRounds f rounds a).run site ⟨[]⟩ = .ok a ⟨[]⟩ := by
  cases rounds with
  | zero => rfl
  | succ rounds => exact foldRounds_succ rounds a site ⟨[]⟩

/-- More rounds than characters make no difference. -/
theorem foldRounds_of_le (hf : ∀ a raw, (f a raw).Idle) {n m : Nat} {a : α} {site : Site}
    {c : Cursor} (hn : c.rest.length ≤ n) (hm : c.rest.length ≤ m) :
    (foldRounds f n a).run site c = (foldRounds f m a).run site c := by
  -- A round takes at least one character, so the induction is on the rounds of one side.
  induction n generalizing m a c with
  | zero =>
    obtain rfl : c = ⟨[]⟩ := congrArg Cursor.mk (List.length_eq_zero_iff.1 (Nat.le_zero.1 hn))
    rw [foldRounds_nil, foldRounds_nil]
  | succ n ih =>
    cases m with
    | zero =>
      obtain rfl : c = ⟨[]⟩ := congrArg Cursor.mk (List.length_eq_zero_iff.1 (Nat.le_zero.1 hm))
      rw [foldRounds_nil, foldRounds_nil]
    | succ m =>
      rw [foldRounds_succ, foldRounds_succ]
      cases hc : c.next with
      | mk token left =>
        cases token with
        | none => rfl
        | some raw =>
          have hlt := Cursor.length_next_lt hc
          dsimp only
          rw [run_bind, run_bind]
          cases hv : (f a raw).run site left with
          | error e mid => rfl
          | ok v mid =>
            obtain rfl := hf a raw site left v mid hv
            exact ih (by omega) (by omega)

theorem tokenwise_fold (hf : ∀ a raw, (f a raw).Idle) (a : α) : (fold f a).Tokenwise := by
  intro site c c' h
  have hround : ∀ n, (foldRounds f (n + 1) a).run site c = (foldRounds f (n + 1) a).run site c' :=
    fun n => by rw [foldRounds_succ, foldRounds_succ, Cursor.next_of_sameTokens h]
  let n := c.rest.length + c'.rest.length
  calc (fold f a).run site c
      = (foldRounds f (n + 1) a).run site c := foldRounds_of_le hf (Nat.le_refl _) (by omega)
    _ = (foldRounds f (n + 1) a).run site c' := hround n
    _ = (fold f a).run site c' := foldRounds_of_le hf (by omega) (Nat.le_refl _)

end

/-! ### Kinds of values -/

@[simp] theorem tokenwise_int : int.Tokenwise := tokenwise_map tokenwise_word

@[simp] theorem tokenwise_flag : flag.Tokenwise := tokenwise_map tokenwise_int

@[simp] theorem tokenwise_tristate : tristate.Tokenwise := tokenwise_map tokenwise_int

@[simp] theorem tokenwise_float : float.Tokenwise := tokenwise_map tokenwise_word

@[simp] theorem tokenwise_uint : uint.Tokenwise := tokenwise_bind tokenwise_word

@[simp] theorem tokenwise_uint16 : uint16.Tokenwise := tokenwise_bind tokenwise_word

@[simp] theorem tokenwise_uint8 (limit : Nat) : (uint8 limit).Tokenwise :=
  tokenwise_bind tokenwise_word

@[simp] theorem tokenwise_named (ofName? : String → Option α) : (named ofName?).Tokenwise :=
  tokenwise_bind tokenwise_word

@[simp] theorem tokenwise_setPath (put : String → α → α) : (setPath put).Tokenwise :=
  tokenwise_read fun _ => tokenwise_bind tokenwise_word

@[simp] theorem takesWhole_whole : whole.TakesWhole := ⟨id, (id_map whole).symm⟩

theorem takesWhole_map {r : Reader α} {g : α → β} (hr : r.TakesWhole) : (g <$> r).TakesWhole := by
  obtain ⟨f, rfl⟩ := hr
  exact ⟨g ∘ f, (comp_map f g whole).symm⟩

section

variable {r : Reader α} (put : α → β → β)

@[simp] theorem tokenwise_set (hr : r.Tokenwise) : (set r put).Tokenwise := tokenwise_bind hr

@[simp] theorem takesWhole_set (hr : r.TakesWhole) : (set r put).TakesWhole := takesWhole_map hr

variable (said : α → List Record)

@[simp] theorem tokenwise_setSaying (hr : r.Tokenwise) : (setSaying r put said).Tokenwise :=
  tokenwise_bind hr

@[simp] theorem takesWhole_setSaying (hr : r.TakesWhole) : (setSaying r put said).TakesWhole :=
  takesWhole_map hr

end

end Reader

open Reader

@[simp] theorem tokenwise_serviceList : serviceList.Tokenwise :=
  tokenwise_fold (fun _ raw => idle_bind (idle_orBad raw _) fun _ => idle_pure _) []

@[simp] theorem tokenwise_pidList : pidList.Tokenwise := by
  refine tokenwise_fold (fun pids raw => ?_) []
  exact idle_ite (idle_throw _ _) (idle_ite (idle_failure _ _) (idle_pure _))

@[simp] theorem tokenwise_pmtPid : pmtPid.Tokenwise := tokenwise_bind tokenwise_int

@[simp] theorem tokenwise_setFiltering : setFiltering.Tokenwise := tokenwise_bind tokenwise_word

@[simp] theorem tokenwise_setService : setService.Tokenwise := tokenwise_set _ tokenwise_uint16

@[simp] theorem takesWhole_expression : expression.TakesWhole := takesWhole_map takesWhole_whole

/-! ### The vocabulary -/

/-- The keywords that take a whole value. -/
def wholeKeywords : List String :=
  ["autoconf_name_template", "sap_organisation", "port_http", "name"]

namespace Directive

/-- The value of a directive is read token by token. -/
def Tokenwise : Directive → Prop
  | openChannel => True
  | channel _ read => read.Tokenwise
  | parameter _ read => read.Tokenwise

/-- The value of a directive is a whole value. -/
def TakesWhole : Directive → Prop
  | openChannel => False
  | channel first read => first = [] ∧ read.TakesWhole
  | parameter _ read => read.TakesWhole

/-- How the value of a keyword is read. Of those with a whole value only the name is about a
channel. -/
def Reads (keyword : String) (d : Directive) : Prop :=
  if keyword ∈ wholeKeywords then d.TakesWhole ∧ (d.target = .channel ↔ keyword = "name")
  else d.Tokenwise

end Directive

theorem Section.reads_vocabulary (s : Section) : ∀ e ∈ s.vocabulary, e.2.Reads e.1 := by
  cases s with
  | tuning =>
    simp [vocabulary, tuningVocabulary, tuningDirective, lnbDirective, Directive.Reads,
      wholeKeywords, Directive.Tokenwise]
  | autoconf =>
    simp [vocabulary, autoconfVocabulary, autoconfDirective, Directive.Reads, wholeKeywords,
      Directive.Tokenwise, Directive.TakesWhole, Directive.target]
  | sap =>
    simp [vocabulary, sapVocabulary, sapDirective, channelDirective, Directive.Reads,
      wholeKeywords, Directive.Tokenwise, Directive.TakesWhole, Directive.target]
  | cam =>
    simp [vocabulary, camVocabulary, camDirective, Directive.Reads, wholeKeywords,
      Directive.Tokenwise]
  | scam =>
    simp [vocabulary, scamVocabulary, scamDirective, channelScamDirective, channelDirective,
      Directive.Reads, wholeKeywords, Directive.Tokenwise]
  | unicast =>
    simp [vocabulary, unicastVocabulary, unicastDirective, channelDirective, Directive.Reads,
      wholeKeywords, Directive.Tokenwise, Directive.TakesWhole, Directive.target]
  | multicast =>
    simp [vocabulary, multicastVocabulary, multicastDirective, channelDirective, Directive.Reads,
      wholeKeywords, Directive.Tokenwise]
  | rewrite =>
    simp [vocabulary, rewriteVocabulary, rewriteDirective, Directive.Reads, wholeKeywords,
      Directive.Tokenwise]
  | logging =>
    simp [vocabulary, loggingVocabulary, loggingDirective, Directive.Reads, wholeKeywords,
      Directive.Tokenwise]
  | main =>
    simp [vocabulary, mainVocabulary, optionsDirective, bufferingDirective, channelDirective,
      Directive.Reads, wholeKeywords, Directive.Tokenwise, Directive.TakesWhole, Directive.target]

/-! ### What a directive does with it -/

namespace Reader

variable {r : Reader α}

theorem run_map (f : α → β) (r : Reader α) (site : Site) (c : Cursor) :
    (f <$> r).run site c =
      match r.run site c with
      | .ok v left => .ok (f v) left
      | .error e left => .error e left :=
  run_bind r (fun v => pure (f v)) site c

theorem run_of_value (hr : r.TakesWhole) {c left : Cursor} {v : String}
    (hc : c.wholeValue = (some v, left)) : ∃ a, ∀ site, r.run site c = .ok a left := by
  obtain ⟨f, rfl⟩ := hr
  refine ⟨f v, fun site => ?_⟩
  rw [run_map]
  unfold run whole
  rw [hc]

theorem run_of_no_value (hr : r.TakesWhole) {c left : Cursor} (hc : c.wholeValue = (none, left))
    (site : Site) : r.run site c = .error (.missingValue site.keyword) left := by
  obtain ⟨f, rfl⟩ := hr
  rw [run_map]
  unfold run whole
  rw [hc]

theorem run_of_wholeValue_eq (hr : r.TakesWhole) {c c' : Cursor} (hc : c.wholeValue = c'.wholeValue)
    (site : Site) : r.run site c = r.run site c' := by
  obtain ⟨f, rfl⟩ := hr
  rw [run_map, run_map]
  unfold run whole
  rw [hc]

end Reader

/-- Whether directives did the same, whatever is left of the line. -/
structure Applied.SameEffect (a b : Applied) : Prop where
  result : a.result = b.result
  records : a.records = b.records

namespace Directive

variable {d : Directive} {draft : Draft} {c c' left : Cursor}

/-- Whether a directive finds the same at two cursors. -/
def FindsSame (c c' : Cursor) : Directive → Prop
  | openChannel => True
  | channel _ read => ∀ site, read.run site c = read.run site c'
  | parameter _ read => ∀ site, read.run site c = read.run site c'

theorem findsSame_of_tokenwise (hd : d.Tokenwise) (hc : c.SameTokens c') : d.FindsSame c c' := by
  cases d with
  | openChannel => trivial
  | channel first read => exact fun site => hd site c c' hc
  | parameter p read => exact fun site => hd site c c' hc

theorem findsSame_of_wholeValue_eq (hd : d.TakesWhole) (hc : c.wholeValue = c'.wholeValue) :
    d.FindsSame c c' := by
  cases d with
  | openChannel => exact hd.elim
  | channel first read => exact run_of_wholeValue_eq hd.2 hc
  | parameter p read => exact run_of_wholeValue_eq hd hc

/-- What a directive does only depends on what it finds. -/
theorem apply_of_findsSame (h : d.FindsSame c c') (k : String) (draft : Draft) :
    (d.apply k draft c).SameEffect (d.apply k draft c') := by
  cases d with
  | openChannel =>
    cases ho : draft.store.channels.openChannel <;> constructor <;> simp only [apply, ho]
  | channel first read =>
    cases ho : draft.openedChannel with
    | none => constructor <;> simp only [apply, ho]
    | some found =>
      obtain ⟨i, ch⟩ := found
      have hread : read.run ⟨k, i⟩ c = read.run ⟨k, i⟩ c' := h _
      constructor <;> simp only [apply, ho, readChange, hread]
  | parameter p read =>
    have hread := h ⟨k, draft.current.getD 0⟩
    constructor <;> simp only [apply, readChange, hread]

/-- Whether a directive has something to change: one about a channel needs one that is open. -/
def HasPlace (d : Directive) (draft : Draft) : Prop :=
  d.target = .channel → draft.openedChannel.isSome

theorem apply_of_value (hd : d.TakesWhole) (hplace : d.HasPlace draft) {v : String}
    (hc : c.wholeValue = (some v, left)) (k : String) :
    ∃ draft', (d.apply k draft c).result = .ok draft' := by
  cases d with
  | openChannel => exact hd.elim
  | channel first read =>
    obtain ⟨change, hread⟩ := run_of_value hd.2 hc
    obtain ⟨⟨i, ch⟩, ho⟩ := Option.isSome_iff_exists.1 (hplace rfl)
    simp only [apply, ho, readChange, hread]
    exact ⟨_, rfl⟩
  | parameter p read =>
    obtain ⟨change, hread⟩ := run_of_value hd hc
    simp only [apply, readChange, hread]
    exact ⟨_, rfl⟩

theorem apply_of_no_value (hd : d.TakesWhole) (hplace : d.HasPlace draft)
    (hc : c.wholeValue = (none, left)) (k : String) :
    d.apply k draft c = ⟨.error (.missingValue k), [], left⟩ := by
  cases d with
  | openChannel => exact hd.elim
  | channel first read =>
    obtain ⟨⟨i, ch⟩, ho⟩ := Option.isSome_iff_exists.1 (hplace rfl)
    simp only [apply, ho, readChange, run_of_no_value hd.2 hc, hd.1]
    rfl
  | parameter p read =>
    simp only [apply, readChange, run_of_no_value hd hc]
    rfl

/-- Without a place the line is not looked at. -/
theorem apply_of_no_place (hplace : ¬d.HasPlace draft) (k : String) :
    (d.apply k draft c).SameEffect (d.apply k draft c') := by
  cases d with
  | openChannel => exact absurd (fun h => by cases h) hplace
  | parameter p read => exact absurd (fun h => by cases h) hplace
  | channel first read =>
    have ho : draft.openedChannel = none := by
      rw [← Option.not_isSome_iff_eq_none]
      exact fun hsome => hplace fun _ => hsome
    constructor <;> simp only [apply, ho]

end Directive

end Headend.Config
