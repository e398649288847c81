import Headend.Proofs.TuningArithmetic

/-!
# Missing frequencies

Parameters are refused for want of a frequency where the word to be programmed is zero. For all but
satellites that word is the frequency in Hz, which is zero exactly if none was given. For satellites
it is the distance to the oscillator in use: without a frequency it is zero only if the oscillator's
is zero too, and a frequency that was given is taken for none if it is the oscillator's.

Facts: `hertz_whole` and `aboveOscillator_whole` (the words of a whole number of MHz),
`parameters_eq_noFrequency_iff` (when parameters are refused), `noFrequency_iff_whole` (for whole
numbers of MHz).
-/

namespace Headend.Tuner

open Headend.Config (Tuning)
open Headend.Number (Binary64 largest least)

/-! ### Refused parameters -/

theorem parameters_eq_noFrequency_iff {t : Tuning} {type : UInt32} {kind : Kind}
    (hkind : drivenAs t type = some kind) (hfits : FitsKind t kind) :
    parameters t type = .ok (.error .noFrequency) ↔ frequencyFor t kind = 0 := by
  obtain ⟨p, hp, hfrequency, -⟩ := exists_parametersFor hfits
  rw [parameters_of_ok hkind hp, hfrequency]
  split <;> simp [*]

theorem exists_drivenAs (t : Tuning) {type : UInt32} (htype : type.toNat ≤ 3) :
    ∃ kind, drivenAs t type = some kind := by
  unfold drivenAs
  cases t.deliverySystem with
  | some s => exact ⟨_, rfl⟩
  | none =>
    obtain h | h | h | h : type.toNat = 0 ∨ type.toNat = 1 ∨ type.toNat = 2 ∨ type.toNat = 3 := by
      omega
    all_goals
      dsimp only
      rw [Kind.ofType?, h]
      exact ⟨_, rfl⟩

/-! ### The words of whole numbers -/

theorem frequencyWord_eq_zero_iff (n : ℕ) : frequencyWord n = 0 ↔ n = 0 := by
  have hlt : min n (UInt32.size - 1) < UInt32.size := by
    have hsize : UInt32.size = 4294967296 := rfl
    omega
  have hsize : UInt32.size - 1 ≠ 0 := by decide
  rw [← UInt32.toNat_inj, frequencyWord, UInt32.toNat_ofNat_of_lt' hlt, UInt32.toNat_zero]
  omega

section

variable {t : Tuning} {type : UInt32} {n : ℕ} (hfreq : t.freq.IsWhole n) (hn : n ≤ 100000)
include hfreq hn

theorem kilohertz_whole : kilohertz t.freq = n * 1000 := by
  have hscaled : (t.freq.scale 1000).IsWhole (n * 1000) := hfreq.scale (by omega)
  rw [kilohertz, hscaled.toInteger]
  unfold least largest
  omega

theorem aboveOscillator_whole :
    aboveOscillator t = ((n : ℤ) - (oscillator t).toNat) * 1000 := by
  rw [aboveOscillator, kilohertz_whole hfreq hn, Int.sub_mul]

theorem hertz_eq_zero_iff : hertz t.freq = 0 ↔ n = 0 := by
  have hscaled : (t.freq.scale 1000000).IsWhole (n * 1000000) := hfreq.scale (by omega)
  have hsize : UInt32.size = 4294967296 := rfl
  rw [hertz, hscaled.toInteger, ← UInt32.toNat_inj, UInt32.toNat_ofNat_of_lt' (by omega),
    UInt32.toNat_zero]
  omega

/-- The word of a frequency is zero where the front-end is tuned against an oscillator of that
frequency, and else where there is none. -/
theorem frequencyFor_eq_zero_iff (kind : Kind) :
    frequencyFor t kind = 0 ↔ if kind = .satellite then (oscillator t).toNat = n else n = 0 := by
  cases kind with
  | satellite =>
    rw [frequencyFor, frequencyWord_eq_zero_iff, aboveOscillator_whole hfreq hn, if_pos rfl]
    omega
  | _ => exact hertz_eq_zero_iff hfreq hn

theorem fitsKind_whole (hrate : t.srate.toNat * 1000 < UInt32.size) (kind : Kind) :
    FitsKind t kind := by
  refine ⟨fun _ => hrate, fun _ => ?_⟩
  have hoscillator := (oscillator t).toNat_lt
  rw [aboveOscillator_whole hfreq hn]
  unfold least
  omega

/-- A frequency of a whole number of MHz is found to be missing exactly if it is the oscillator's,
for a satellite, and exactly if it is zero, for everything else. -/
theorem noFrequency_iff_whole (hrate : t.srate.toNat * 1000 < UInt32.size)
    (htype : type.toNat ≤ 3) :
    parameters t type = .ok (.error .noFrequency) ↔
      if drivenAs t type = some .satellite then (oscillator t).toNat = n else n = 0 := by
  obtain ⟨kind, hkind⟩ := exists_drivenAs t htype
  rw [parameters_eq_noFrequency_iff hkind (fitsKind_whole hfreq hn hrate kind),
    frequencyFor_eq_zero_iff hfreq hn, hkind]
  simp only [Option.some.injEq]

end

/-- A satellite at a frequency, with the converter as it is unless it is configured. -/
def satelliteAt (mhz : ℕ) : Tuning where
  freq := .ofQuotient false mhz 1
  pol := some .horizontal
  srate := 27500
  deliverySystem := some .dvbS

theorem isWhole_satelliteAt {mhz : ℕ} (h : mhz < 2 ^ 53) : (satelliteAt mhz).freq.IsWhole mhz := by
  have hwhole := Binary64.isWhole_ofQuotient h 0 fun _ => rfl
  rwa [Nat.pow_zero, Nat.mul_one] at hwhole

/-- The frequency of the lower oscillator, and none at all. -/
theorem noFrequency_iff_whole_satellite :
    ((satelliteAt 9750).freq.IsWhole 9750 ∧ (satelliteAt 0).freq.IsWhole 0) ∧
      (9750 ≤ 100000 ∧ 27500 * 1000 < UInt32.size ∧ satelliteType.toNat ≤ 3) ∧
      parameters (satelliteAt 9750) satelliteType = .ok (.error .noFrequency) ∧
      parameters (satelliteAt 0) satelliteType ≠ .ok (.error .noFrequency) := by
  have hlow : (satelliteAt 9750).freq.IsWhole 9750 := isWhole_satelliteAt (by decide)
  have hnone : (satelliteAt 0).freq.IsWhole 0 := isWhole_satelliteAt (by decide)
  refine ⟨⟨hlow, hnone⟩, ⟨by decide, by decide, by decide⟩, ?_, fun h => ?_⟩
  · exact (noFrequency_iff_whole hlow (by decide) (by decide) (by decide)).2 (by decide +kernel)
  · have hzero := (noFrequency_iff_whole hnone (by decide) (by decide) (by decide)).1 h
    exact absurd hzero (by decide +kernel)

/-- Without a frequency a satellite is tuned to the oscillator's, and the oscillator's frequency is
taken for none. -/
theorem not_refusedExactlyIfMissing :
    (¬∀ (t : Tuning) (type : UInt32), t.srate.toNat * 1000 < UInt32.size → type.toNat ≤ 3 →
      t.freq = .zero → parameters t type = .ok (.error .noFrequency)) ∧
    ¬∀ (t : Tuning) (type : UInt32) (n : ℕ), t.srate.toNat * 1000 < UInt32.size →
      type.toNat ≤ 3 → 1 ≤ n → n ≤ 100000 → t.freq.IsWhole n →
      parameters t type ≠ .ok (.error .noFrequency) := by
  constructor
  · intro h
    exact absurd (h (satelliteAt 0) satelliteType (by decide) (by decide) (by decide +kernel))
      (by decide +kernel)
  · intro h
    exact h (satelliteAt 9750) satelliteType 9750 (by decide) (by decide) (by decide) (by decide)
      (isWhole_satelliteAt (by decide)) (by decide +kernel)

end Headend.Tuner
