import Headend.Proofs.OpenSources
import Headend.Proofs.WholeNumbers

/-!
# Arithmetic of tuning

The word of a symbol rate holds up to 4294967 thousand symbols. The distance to the oscillator is
computed with 64 bits, which only a frequency far below zero exceeds. What is asked for fits into
these words exactly if the parameters are computed, and then tuning ends with a result in every
world; a rate that was programmed is the one that was asked for.

Facts: `exists_parametersFor` and `parametersFor_of_not_fits` (one kind of front-end),
`returnsFrom_tune_iff` (tuning in a world), `fits_of_usual` (when everything fits), `computes` (all
of it).
-/

namespace Headend.Number.Binary64

/-! ### Signs and bounds -/

theorem nearestBits_lt (n d : ℕ) : nearestBits n d < topBit := by
  unfold nearestBits
  split
  · decide
  · exact (Nat.min_le_left ..).trans_lt (by decide)

theorem negative_scale (x : Binary64) (k : ℕ) : (x.scale k).negative = x.negative := by
  unfold scale
  split
  · rfl
  · exact negative_ofParts (nearestBits_lt ..) x.negative

variable {low high : ℤ}

theorem toInteger_le (x : Binary64) (hlow : low ≤ high) (hhigh : 0 ≤ high) :
    x.toInteger low high ≤ high := by
  unfold toInteger
  split
  · exact hhigh
  split
  · split
    · exact hlow
    · exact le_rfl
  · exact max_le hlow (min_le_left ..)

theorem toInteger_nonneg {x : Binary64} (hx : x.negative = false) (hhigh : 0 ≤ high) :
    0 ≤ x.toInteger low high := by
  have hnearest : 0 ≤ x.nearestInteger := by
    unfold nearestInteger
    dsimp only
    rw [hx, if_neg Bool.false_ne_true]
    exact Int.natCast_nonneg _
  unfold toInteger
  rw [hx, if_neg Bool.false_ne_true]
  split
  · exact le_rfl
  split
  · exact hhigh
  · exact le_max_of_le_right (le_min hhigh hnearest)

end Headend.Number.Binary64

namespace Headend.Tuner

open Headend.Config (Tuning Section)
open Headend.Host
open Headend.Host.Run
open Headend.Number (largest least)

/-! ### What has to fit -/

/-- Whether a kind of front-end is programmed with a symbol rate. -/
def Kind.HasRate : Kind → Prop
  | satellite | cable => True
  | terrestrial | atsc => False

/-- How far the frequency stands above the oscillator, in kHz. -/
def aboveOscillator (t : Tuning) : Int := kilohertz t.freq - (oscillator t).toNat * 1000

/-- Whether the words of a kind of front-end can hold what is asked for. -/
structure FitsKind (t : Tuning) (kind : Kind) : Prop where
  rate : kind.HasRate → t.srate.toNat * 1000 < UInt32.size
  distance : kind = .satellite → least ≤ aboveOscillator t

/-- Whether the words of the front-end that is driven can hold what is asked for. -/
def Fits (t : Tuning) (type : UInt32) : Prop :=
  ∀ kind, drivenAs t type = some kind → FitsKind t kind

/-- The word of the frequency for a kind of front-end. -/
def frequencyFor (t : Tuning) : Kind → UInt32
  | .satellite => frequencyWord (aboveOscillator t).natAbs
  | .cable | .terrestrial | .atsc => hertz t.freq

section

variable {t : Tuning} {type : UInt32} {kind : Kind}

theorem symbolRate_of_lt (h : t.srate.toNat * 1000 < UInt32.size) :
    symbolRate t = .ok (UInt32.ofNat (t.srate.toNat * 1000)) := if_pos h

theorem symbolRate_of_not_lt (h : ¬t.srate.toNat * 1000 < UInt32.size) :
    symbolRate t = .error .multiplication := if_neg h

theorem aboveOscillator_le (t : Tuning) : aboveOscillator t ≤ largest := by
  have hle : kilohertz t.freq ≤ largest := Number.Binary64.toInteger_le _ (by decide) (by decide)
  unfold aboveOscillator
  omega

theorem intermediate_of_le (h : least ≤ aboveOscillator t) :
    intermediate t = .ok (frequencyFor t .satellite) := by
  have hfits : fitsInt64 (aboveOscillator t) .subtraction = .ok (aboveOscillator t) :=
    if_pos ⟨h, aboveOscillator_le t⟩
  rw [aboveOscillator] at hfits
  rw [intermediate, hfits]
  rfl

theorem intermediate_of_not_le (h : ¬least ≤ aboveOscillator t) :
    intermediate t = .error .subtraction := by
  have hfits : fitsInt64 (aboveOscillator t) .subtraction = .error .subtraction :=
    if_neg fun hboth => h hboth.1
  rw [aboveOscillator] at hfits
  rw [intermediate, hfits]
  rfl

/-- What a kind of front-end is programmed with, if it fits. -/
theorem exists_parametersFor (h : FitsKind t kind) :
    ∃ p, parametersFor t kind = .ok p ∧ p.frequency = frequencyFor t kind ∧
      (kind.HasRate → p.words.head? = some (UInt32.ofNat (t.srate.toNat * 1000))) := by
  cases kind with
  | satellite =>
    rw [parametersFor, intermediate_of_le (h.distance rfl), symbolRate_of_lt (h.rate trivial)]
    exact ⟨_, rfl, rfl, fun _ => rfl⟩
  | cable =>
    rw [parametersFor, symbolRate_of_lt (h.rate trivial)]
    exact ⟨_, rfl, rfl, fun _ => rfl⟩
  | terrestrial => exact ⟨_, rfl, rfl, False.elim⟩
  | atsc => exact ⟨_, rfl, rfl, False.elim⟩

/-- What does not fit ends the process; the distance is computed before the rate. -/
theorem parametersFor_of_not_fits (h : ¬FitsKind t kind) :
    parametersFor t kind = .error (if kind = .satellite ∧ ¬least ≤ aboveOscillator t
      then .subtraction else .multiplication) := by
  cases kind with
  | satellite =>
    by_cases hdistance : least ≤ aboveOscillator t
    · have hrate : ¬t.srate.toNat * 1000 < UInt32.size :=
        fun hlt => h ⟨fun _ => hlt, fun _ => hdistance⟩
      rw [parametersFor, intermediate_of_le hdistance, symbolRate_of_not_lt hrate,
        if_neg fun hboth => hboth.2 hdistance]
      rfl
    · rw [parametersFor, intermediate_of_not_le hdistance, if_pos ⟨rfl, hdistance⟩]
      rfl
  | cable =>
    have hrate : ¬t.srate.toNat * 1000 < UInt32.size :=
      fun hlt => h ⟨fun _ => hlt, fun hkind => by cases hkind⟩
    rw [parametersFor, symbolRate_of_not_lt hrate, if_neg (by simp)]
    rfl
  | terrestrial => exact absurd ⟨False.elim, fun hkind => by cases hkind⟩ h
  | atsc => exact absurd ⟨False.elim, fun hkind => by cases hkind⟩ h

theorem srate_lt_iff (t : Tuning) :
    ¬t.srate.toNat * 1000 < UInt32.size ↔ 4294967 < t.srate.toNat := by
  have hsize : UInt32.size = 4294967296 := rfl
  omega

theorem parametersFor_eq_subtraction_iff :
    parametersFor t kind = .error .subtraction ↔
      kind = .satellite ∧ aboveOscillator t < least := by
  constructor
  · intro h
    have hfits : ¬FitsKind t kind := by
      intro hfits
      obtain ⟨p, hp, -⟩ := exists_parametersFor hfits
      rw [hp] at h
      cases h
    rw [parametersFor_of_not_fits hfits] at h
    split at h
    · exact ‹_ ∧ _›.imp_right Int.not_le.1
    · cases h
  · rintro ⟨rfl, hdistance⟩
    have hnot : ¬least ≤ aboveOscillator t := Int.not_le.2 hdistance
    rw [parametersFor_of_not_fits fun hfits => hnot (hfits.distance rfl), if_pos ⟨rfl, hnot⟩]

theorem parametersFor_eq_multiplication_iff :
    parametersFor t kind = .error .multiplication ↔ kind.HasRate ∧ 4294967 < t.srate.toNat ∧
      (kind = .satellite → least ≤ aboveOscillator t) := by
  constructor
  · intro h
    have hdistance : kind = .satellite → least ≤ aboveOscillator t := by
      rintro rfl
      by_contra hnot
      rw [parametersFor_eq_subtraction_iff.2 ⟨rfl, Int.not_le.1 hnot⟩] at h
      cases h
    have hfits : ¬FitsKind t kind := by
      intro hfits
      obtain ⟨p, hp, -⟩ := exists_parametersFor hfits
      rw [hp] at h
      cases h
    have hrate : ¬(kind.HasRate → t.srate.toNat * 1000 < UInt32.size) :=
      fun hrate => hfits ⟨hrate, hdistance⟩
    obtain ⟨hhas, hlt⟩ := Classical.not_imp.1 hrate
    exact ⟨hhas, (srate_lt_iff t).1 hlt, hdistance⟩
  · rintro ⟨hhas, hrate, hdistance⟩
    rw [parametersFor_of_not_fits fun hfits => (srate_lt_iff t).2 hrate (hfits.rate hhas),
      if_neg fun hboth => hboth.2 (hdistance hboth.1)]

/-! ### The parameters of a front-end -/

theorem parameters_of_not_driven (hkind : drivenAs t type = none) :
    parameters t type = .ok (.error (.unsupported type)) := by
  rw [parameters, hkind]

theorem parameters_of_ok {p : Parameters} (hkind : drivenAs t type = some kind)
    (hp : parametersFor t kind = .ok p) :
    parameters t type = .ok (if p.frequency = 0 then .error .noFrequency else .ok p) := by
  rw [parameters, hkind]
  dsimp only
  rw [hp]
  rfl

theorem parameters_of_error {o : Overflow} (hkind : drivenAs t type = some kind)
    (hp : parametersFor t kind = .error o) : parameters t type = .error o := by
  rw [parameters, hkind]
  dsimp only
  rw [hp]
  rfl

theorem parameters_eq_error_iff {o : Overflow} :
    parameters t type = .error o ↔
      ∃ kind, drivenAs t type = some kind ∧ parametersFor t kind = .error o := by
  refine ⟨fun h => ?_, fun ⟨kind, hkind, hp⟩ => parameters_of_error hkind hp⟩
  cases hkind : drivenAs t type with
  | none =>
    rw [parameters_of_not_driven hkind] at h
    cases h
  | some kind =>
    refine ⟨kind, rfl, ?_⟩
    cases hp : parametersFor t kind with
    | ok p =>
      rw [parameters_of_ok hkind hp] at h
      cases h
    | error o' =>
      rw [parameters_of_error hkind hp] at h
      exact congrArg Except.error (Except.error.inj h)

/-- The parameters are computed exactly if all that is asked for fits. -/
theorem exists_parameters_iff : (∃ answer, parameters t type = .ok answer) ↔ Fits t type := by
  constructor
  · rintro ⟨answer, hanswer⟩ kind hkind
    by_contra hfits
    rw [parameters_of_error hkind (parametersFor_of_not_fits hfits)] at hanswer
    cases hanswer
  · intro h
    cases hkind : drivenAs t type with
    | none => exact ⟨_, parameters_of_not_driven hkind⟩
    | some kind =>
      obtain ⟨p, hp, -⟩ := exists_parametersFor (h kind hkind)
      exact ⟨_, parameters_of_ok hkind hp⟩

/-- Tuning ends with a result exactly if the parameters are computed. -/
theorem returnsFrom_tune_iff (d : OpenDevice) (t : Tuning) (w : World) :
    (tune d t).ReturnsFrom w ↔ Fits t d.type := by
  rw [← exists_parameters_iff]
  constructor
  · rintro ⟨r, w', h⟩
    cases hanswer : parameters t d.type with
    | ok answer => exact ⟨answer, rfl⟩
    | error o =>
      have hbreaks : tune d t w = .error o w := by
        rw [tune, hanswer]
        rfl
      rw [hbreaks] at h
      cases h
  · rintro ⟨answer, hanswer⟩
    cases h : tune d t w with
    | ok r w' => exact ⟨r, w', h⟩
    | error o w' =>
      rw [breaksBy_tune d t w o w' h] at hanswer
      cases hanswer

/-- A rate of at most 4294967 thousand and a frequency that is not below zero always fit. -/
theorem fits_of_usual (hrate : t.srate.toNat ≤ 4294967) (hfreq : t.freq.negative = false)
    (type : UInt32) : Fits t type := by
  intro kind _
  refine ⟨fun _ => ?_, fun _ => ?_⟩
  · have hsize : UInt32.size = 4294967296 := rfl
    omega
  · have hnonneg : 0 ≤ kilohertz t.freq :=
      Number.Binary64.toInteger_nonneg ((Number.Binary64.negative_scale _ _).trans hfreq)
        (by decide)
    have hoscillator := (oscillator t).toNat_lt
    unfold aboveOscillator least
    omega

end

/-- How far the arithmetic of tuning reaches for a type of front-end. -/
structure Computes (t : Tuning) (type : UInt32) : Prop where
  /-- There are parameters, or an error that says why there are none, exactly if all fits. -/
  ends_iff : (∃ answer, parameters t type = .ok answer) ↔ Fits t type
  /-- Then the whole of tuning comes to its end, with the converter that is set up in it. -/
  tunes_iff : ∀ (d : OpenDevice) (w : World), d.type = type →
    ((tune d t).ReturnsFrom w ↔ Fits t type)
  /-- Else the process ends, because of the distance or else because of the rate. -/
  subtraction_iff : parameters t type = .error .subtraction ↔
    drivenAs t type = some .satellite ∧ aboveOscillator t < least
  multiplication_iff : parameters t type = .error .multiplication ↔
    (∃ kind, drivenAs t type = some kind ∧ kind.HasRate) ∧ 4294967 < t.srate.toNat ∧
      (drivenAs t type = some .satellite → least ≤ aboveOscillator t)
  /-- A rate that is programmed is the one that was asked for. -/
  rate : ∀ kind p, drivenAs t type = some kind → kind.HasRate → parameters t type = .ok (.ok p) →
    ∃ word, p.words.head? = some word ∧ word.toNat = t.srate.toNat * 1000
  usual : t.srate.toNat ≤ 4294967 → t.freq.negative = false → Fits t type

theorem computes (t : Tuning) (type : UInt32) : Computes t type := by
  refine ⟨exists_parameters_iff, ?_, ?_, ?_, ?_, fun hrate hfreq => fits_of_usual hrate hfreq type⟩
  · rintro d w rfl
    exact returnsFrom_tune_iff d t w
  · rw [parameters_eq_error_iff]
    simp only [parametersFor_eq_subtraction_iff]
    exact ⟨fun ⟨kind, hkind, h, hdistance⟩ => ⟨h ▸ hkind, hdistance⟩,
      fun ⟨hkind, hdistance⟩ => ⟨.satellite, hkind, rfl, hdistance⟩⟩
  · rw [parameters_eq_error_iff]
    simp only [parametersFor_eq_multiplication_iff]
    constructor
    · rintro ⟨kind, hkind, hhas, hrate, hdistance⟩
      exact ⟨⟨kind, hkind, hhas⟩, hrate, fun h => hdistance (Option.some.inj (hkind.symm.trans h))⟩
    · rintro ⟨⟨kind, hkind, hhas⟩, hrate, hdistance⟩
      exact ⟨kind, hkind, hhas, hrate, fun h => hdistance (h ▸ hkind)⟩
  · intro kind p hkind hhas hp
    have hfits : FitsKind t kind := exists_parameters_iff.1 ⟨_, hp⟩ kind hkind
    obtain ⟨p', hp', -, hhead⟩ := exists_parametersFor hfits
    rw [parameters_of_ok hkind hp', Except.ok.injEq] at hp
    split at hp
    · cases hp
    · obtain rfl := Except.ok.inj hp
      exact ⟨_, hhead hhas, UInt32.toNat_ofNat_of_lt' (hfits.rate hhas)⟩

example : parameters { deliverySystem := some .dvbS, freq := Number.leadingFloat "-1e16" } 0 =
    .error .subtraction := by decide +kernel

/-- What the lines of a configuration and the options above them come to. -/
def settled (bs : Text.Octets) (o : CommandLine.Options) : Config.Resolved :=
  (o.override (Config.parse Section.all {} bs).draft.store).resolve

/-- A configuration for a satellite that is read and resolved can ask for a rate that is neither
programmed nor refused. -/
theorem not_computedWheneverResolved :
    ¬∀ (bs : Text.Octets) (o : CommandLine.Options) (type : UInt32),
      (Config.parse Section.all {} bs).result = .ok () → (settled bs o).result = .ok () →
      ∃ answer, parameters (settled bs o).store.tuning type = .ok answer := by
  intro h
  let bs := Text.octets "delivery_system = DVBS\nfreq = 11778\npol = h\nsrate = 4294968\n"
  have hresult : (Config.parse Section.all {} bs).result = .ok () ∧
      (settled bs {}).result = .ok () := by decide +kernel
  have hbreaks : parameters (settled bs {}).store.tuning satelliteType = .error .multiplication := by
    decide +kernel
  obtain ⟨answer, hanswer⟩ := h bs {} satelliteType hresult.1 hresult.2
  rw [hbreaks] at hanswer
  cases hanswer

end Headend.Tuner
