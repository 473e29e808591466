import CamStream.Nal.Scan

/-!
# The cached pair of parameter sets

A decoder needs one sequence parameter set and one picture parameter set before the first slice.
Both are kept as whole units, start code included, so that they can be put in front of an IDR
slice as they are, and their concatenation is a blob that describes itself.

* `setSps_eq_ok_iff`, `setPps_eq_ok_iff`: a unit is accepted exactly when its length is within
  bounds, and then it takes the place of the cached one.
-/

namespace CamStream

/-- The greatest length of a parameter set, taken from a stream or from a store. -/
def maxSetLength : Nat := 1024

/-- Why a unit is refused as a parameter set. -/
inductive SetRefusal where
  /-- Too short to hold a start code and a header. -/
  | tooShort
  | tooLong (length : Nat)
deriving DecidableEq, Repr

/-- A sequence parameter set and a picture parameter set. -/
structure ParameterSets where
  sps : Bytes
  pps : Bytes
deriving DecidableEq, Repr

namespace ParameterSets

/-- The pair in force until a real one has been seen: High profile at level 5.2. -/
def builtIn : ParameterSets where
  sps :=
    [0x00, 0x00, 0x00, 0x01, 0x67, 0x64, 0x00, 0x34, 0xAC, 0x4D, 0x00, 0xF0, 0x04, 0x4F, 0xCB,
      0x35, 0x01, 0x01, 0x01, 0x40, 0x00, 0x00, 0xFA, 0x00, 0x00, 0x3A, 0x98, 0x03, 0xC7, 0x0C,
      0xA8]
  pps := [0x00, 0x00, 0x00, 0x01, 0x68, 0xEE, 0x3C, 0xB0]

instance : Inhabited ParameterSets := ⟨builtIn⟩

/-! ## Replacing one of the two -/

/-- Why a unit cannot be a parameter set, judged by its length alone. -/
def refusal? (unit : Bytes) : Option SetRefusal :=
  if unit.length < minUnitLength then some .tooShort
  else if maxSetLength < unit.length then some (.tooLong unit.length)
  else none

/-- The pair with another sequence parameter set. -/
def setSps (sets : ParameterSets) (unit : Bytes) : Except SetRefusal ParameterSets :=
  match refusal? unit with
  | some refusal => .error refusal
  | none => .ok { sets with sps := unit }

/-- The pair with another picture parameter set. -/
def setPps (sets : ParameterSets) (unit : Bytes) : Except SetRefusal ParameterSets :=
  match refusal? unit with
  | some refusal => .error refusal
  | none => .ok { sets with pps := unit }

/-- A unit whose length is that of an acceptable parameter set. -/
def Admissible (unit : Bytes) : Prop :=
  minUnitLength ≤ unit.length ∧ unit.length ≤ maxSetLength

instance (unit : Bytes) : Decidable (Admissible unit) :=
  inferInstanceAs (Decidable (_ ∧ _))

theorem refusal?_eq_none_iff {unit : Bytes} : refusal? unit = none ↔ Admissible unit := by
  unfold refusal? Admissible
  split
  · simp; omega
  · split
    · simp; omega
    · simp; omega

theorem setSps_eq_ok_iff {sets result : ParameterSets} {unit : Bytes} :
    sets.setSps unit = .ok result ↔ Admissible unit ∧ result = { sets with sps := unit } := by
  rw [← refusal?_eq_none_iff]
  cases h : refusal? unit <;> simp [setSps, h, eq_comm]

theorem setPps_eq_ok_iff {sets result : ParameterSets} {unit : Bytes} :
    sets.setPps unit = .ok result ↔ Admissible unit ∧ result = { sets with pps := unit } := by
  rw [← refusal?_eq_none_iff]
  cases h : refusal? unit <;> simp [setPps, h, eq_comm]

/-- The pair itself when both sets are admissible, the built-in pair otherwise: never one of
each. -/
def orBuiltIn (sets : ParameterSets) : ParameterSets :=
  if Admissible sets.sps ∧ Admissible sets.pps then sets else builtIn

/-! ## The pair as one blob -/

/-- The sequence parameter set, then the picture parameter set. -/
def toBlob (sets : ParameterSets) : Bytes := sets.sps ++ sets.pps

/-- The last unit of a kind. -/
def lastOfKind (kind : NalKind) (units : List NalUnit) : Option Bytes :=
  ((units.filter (·.kind = kind)).getLast?).map (·.bytes)

/-- The parameter sets among the first two units of a blob. They are told apart by their kind and
not by their position, so a blob that holds the picture parameter set first is read too. -/
def splitBlob (blob : Bytes) : Option Bytes × Option Bytes :=
  let units := scan blob 2
  (lastOfKind .sps units, lastOfKind .pps units)

/-- The pair that a blob holds, when it holds both sets. -/
def ofBlob? (blob : Bytes) : Option ParameterSets :=
  match splitBlob blob with
  | (some sps, some pps) => some { sps, pps }
  | _ => none

end ParameterSets

end CamStream
