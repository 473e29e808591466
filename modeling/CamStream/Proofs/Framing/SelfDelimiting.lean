import CamStream.Proofs.Framing.OutputStream

/-!
# The cached pair delimits itself

The pair is put in front of slices and kept as a blob without any lengths, so it has to be found
again by its start codes. A set that ends in a bare start code, which is how a frame that was cut
behind one leaves it, breaks this: with the first byte of what follows, that start code begins a
unit of its own, and the real unit behind it is lost.

* `Scanned`: what a scan can cut out of any buffer.
* `ParameterSets.selfDelimiting_iff`: two scanned sets delimit themselves exactly if neither ends
  in a start code.
* `cached_pair_delimited`: so it is for the cached pair after every run; and over frames that do not
  end in a bare start code the pair always delimits itself.
* `cached_pair_cut`: over other frames it need not.
-/

namespace CamStream

/-! ## Units as a scan cuts them out -/

/-- A unit as a scan cuts it out of some buffer, with the kind that its header announces: a start
code occurs in its body only if the body ends in it. -/
def Scanned (kind : NalKind) (bytes : Bytes) : Prop :=
  ∃ header body, bytes = startCode ++ header :: body ∧ kind = .ofHeader header ∧
    (¬ startCode <:+ body → CodeFree body)

theorem scanned_of_mem_scan {buffer : Bytes} {budget : Nat} {unit : NalUnit}
    (h : unit ∈ scan buffer budget) : Scanned unit.kind unit.bytes := by
  obtain ⟨header, body, hbytes, hkind, hfree, -⟩ :=
    Cursor.mem_toList (aligned_breakAtUnit buffer) h
  exact ⟨header, body, hbytes, hkind, hfree⟩

theorem Genuine.scanned {kind : NalKind} {bytes : Bytes} (h : Genuine kind bytes) :
    Scanned kind bytes := by
  obtain ⟨⟨header, body, rfl, hfree⟩, rfl⟩ := h
  exact ⟨header, body, rfl, rfl, fun _ => hfree⟩

theorem Scanned.genuine {kind : NalKind} {bytes : Bytes} (h : Scanned kind bytes)
    (hend : ¬ startCode <:+ bytes) : Genuine kind bytes := by
  obtain ⟨header, body, rfl, rfl, hfree⟩ := h
  have hbody : body <:+ startCode ++ header :: body := ⟨startCode ++ [header], by simp⟩
  exact ⟨⟨header, body, rfl, hfree fun hs => hend (hs.trans hbody)⟩, rfl⟩

/-- A start code at the end of a unit lies in its body, unless the header byte is a zero. -/
theorem startCode_suffix_body {header : UInt8} {body : Bytes} (hheader : header ≠ 0)
    (h : startCode <:+ startCode ++ header :: body) : startCode <:+ body := by
  have hbody : body <:+ startCode ++ header :: body := ⟨startCode ++ [header], by simp⟩
  by_cases hlong : startCode.length ≤ body.length
  · exact List.suffix_of_suffix_length_le h hbody hlong
  · exfalso
    rw [List.suffix_iff_eq_drop] at h
    match body with
    | [] | [_] | [_, _] | [_, _, _] => simp [startCode] at h; try exact hheader h.1.symm
    | _ :: _ :: _ :: _ :: _ => simp [startCode] at hlong

/-! ## Pairs -/

namespace ParameterSets

/-- With any unit behind it, the pair is scanned as its two sets, and the unit after them. -/
def SelfDelimiting (sets : ParameterSets) : Prop :=
  ∀ header body, header ≠ 0 → CodeFree (header :: body) →
    (scanAll (sets.sps ++ sets.pps ++ (startCode ++ header :: body))).map
        (fun unit => (unit.kind, unit.bytes)) =
      [(.sps, sets.sps), (.pps, sets.pps), (.ofHeader header, startCode ++ header :: body)]

variable {sets : ParameterSets}

theorem Whole.selfDelimiting (h : sets.Whole) : sets.SelfDelimiting := by
  intro header body _ hfree
  have hunit : WholeUnit (startCode ++ header :: body) := ⟨header, body, rfl, hfree.tail⟩
  have hwhole : ∀ bytes ∈ [sets.sps, sets.pps, startCode ++ header :: body], WholeUnit bytes := by
    simpa using ⟨h.sps.1, h.pps.1, hunit⟩
  have hflatten : [sets.sps, sets.pps, startCode ++ header :: body].flatten =
      sets.sps ++ sets.pps ++ (startCode ++ header :: body) := by simp
  rw [← hflatten, scanAll_flatten hwhole, layOut_map]
  simp only [List.map_cons, List.map_nil, ← h.sps.2, ← h.pps.2]
  rfl

/-- A pair of whole sets is read back from its blob. -/
theorem Whole.ofBlob?_toBlob (h : sets.Whole) : ofBlob? sets.toBlob = some sets := by
  have hwhole : ∀ bytes ∈ [sets.sps, sets.pps], WholeUnit bytes := by
    simpa using ⟨h.sps.1, h.pps.1⟩
  have hscan := scan_append_flatten codeFree_nil hwhole 2
  have hblob : [] ++ [sets.sps, sets.pps].flatten = sets.toBlob := by simp [toBlob]
  rw [hblob] at hscan
  have hsplit : splitBlob sets.toBlob = (some sets.sps, some sets.pps) := by
    simp [splitBlob, hscan, layOut, lastOfKind, ← h.sps.2, ← h.pps.2]
  rw [ofBlob?, hsplit]

/-- A start code at the end of a scanned parameter set lies in its body. -/
theorem body_of_scanned {kind : NalKind} {bytes : Bytes} (h : Scanned kind bytes)
    (hkind : kind.isParameterSet = true) :
    ∃ header body, bytes = startCode ++ header :: body ∧
      (startCode <:+ bytes → startCode <:+ body) := by
  obtain ⟨header, body, rfl, rfl, -⟩ := h
  refine ⟨header, body, rfl, startCode_suffix_body ?_⟩
  rintro rfl
  revert hkind
  decide

/-- Scanned sets delimit themselves exactly if neither of them ends in a start code. -/
theorem selfDelimiting_iff (hsps : Scanned .sps sets.sps) (hpps : Scanned .pps sets.pps) :
    sets.SelfDelimiting ↔ ¬ startCode <:+ sets.sps ∧ ¬ startCode <:+ sets.pps := by
  constructor
  · intro h
    -- Any unit will do; an IDR slice without a body is the shortest.
    have hscan := h 0x65 [] (by decide) (by unfold CodeFree; decide)
    obtain ⟨header₁, body₁, heq₁, hbody₁⟩ := body_of_scanned hsps rfl
    obtain ⟨header₂, body₂, heq₂, hbody₂⟩ := body_of_scanned hpps rfl
    have hbytes := congrArg (List.map Prod.snd) hscan
    rw [List.map_map, heq₁, heq₂] at hbytes
    simp only [scanAll, List.append_assoc, List.cons_append] at hbytes
    rw [scan_of_aligned aligned_cons] at hbytes
    obtain ⟨hbreak₁, offset, budget, hrest⟩ := Cursor.rest_of_toList_append hbytes
    obtain ⟨hbreak₂, -⟩ := Cursor.rest_of_toList_append hrest
    have hfree₁ : ¬ startCode <:+ body₁ :=
      not_startCode_suffix_of_fst_breakAtUnit (congrArg Prod.fst hbreak₁) (by simp [startCode])
    have hfree₂ : ¬ startCode <:+ body₂ :=
      not_startCode_suffix_of_fst_breakAtUnit (congrArg Prod.fst hbreak₂) (by simp [startCode])
    exact ⟨fun hs => hfree₁ (hbody₁ hs), fun hs => hfree₂ (hbody₂ hs)⟩
  · rintro ⟨hsps', hpps'⟩
    exact Whole.selfDelimiting ⟨hsps.genuine hsps', hpps.genuine hpps'⟩

end ParameterSets

/-! ## The cached pair -/

/-- The latest sets were scanned, unless they are the ones at the start. -/
theorem History.scanned_latestSets {history : History} {seed : ParameterSets}
    (hseed : seed.Whole) (h : ∀ unit ∈ history.units, Scanned unit.kind unit.bytes) :
    Scanned .sps (history.latestSets seed).sps ∧ Scanned .pps (history.latestSets seed).pps :=
  ⟨latest_of_met hseed.sps.scanned fun unit hunit _ => h unit hunit,
    latest_of_met hseed.pps.scanned fun unit hunit _ => h unit hunit⟩

/-- **When the cached pair delimits itself.** In every run of a framer that starts with the built-in
pair, over frames of any bytes, with any store or none and any limits, the cached pair is the latest
accepted set of each kind. Whatever unit is put behind it, a scan finds the two sets and that unit,
exactly if neither set ends in a bare start code. As long as no frame ends in one this is always so,
and then the pair is also read back from its blob. -/
theorem cached_pair_delimited {σ : Type} (keeper? : Option (Keeper (StateM σ))) (limit : Nat)
    (tally : Tally) (calls : List FramerCall) (world : σ) :
    let log := ((({ framer := { limit }, tally } : FramerLog).callAll keeper? calls).run world).1
    let sets := log.framer.sets
    sets = log.history.latestSets .builtIn ∧
    (sets.SelfDelimiting ↔ ¬ startCode <:+ sets.sps ∧ ¬ startCode <:+ sets.pps) ∧
    ((∀ frame, .process frame ∈ calls → ¬ startCode <:+ frame) →
      sets.SelfDelimiting ∧ ParameterSets.ofBlob? sets.toBlob = some sets) := by
  intro log sets
  have hlogged : Logged .builtIn log.history log.framer :=
    FramerLog.logged_callAll keeper? _ calls world (.start limit)
  have hunits : log.history.units = unitsLookedAt limit calls :=
    FramerLog.units_callAll keeper? _ calls world
  have hsets : sets = log.history.latestSets .builtIn := hlogged.tracks.sets
  refine ⟨hsets, ?_, ?_⟩
  · have hscanned : ∀ unit ∈ log.history.units, Scanned unit.kind unit.bytes := by
      intro unit hunit
      rw [hunits] at hunit
      obtain ⟨frame, -, hmem⟩ := mem_unitsLookedAt hunit
      exact scanned_of_mem_scan hmem
    obtain ⟨hsps, hpps⟩ := History.scanned_latestSets ParameterSets.whole_builtIn hscanned
    rw [← hsets] at hsps hpps
    exact ParameterSets.selfDelimiting_iff hsps hpps
  · intro hcalls
    have hmet : log.history.Whole := by
      unfold History.Whole
      rw [hunits]
      exact genuine_of_mem_unitsLookedAt hcalls
    have hwhole : sets.Whole := by
      rw [hsets]
      exact hmet.latestSets ParameterSets.whole_builtIn
    exact ⟨hwhole.selfDelimiting, hwhole.ofBlob?_toBlob⟩

/-- A frame that was cut right behind a start code leaves that start code at the end of the cached
sequence parameter set. The pair does not delimit itself, and the blob that was kept of it cannot be
read back. -/
theorem cached_pair_cut :
    let keeper : Keeper (StateM Shelf) := { store := .memory, device := "0" }
    let calls : List FramerCall := [.process [0, 0, 0, 1, 0x67, 0x64, 0, 0, 0, 1]]
    let last := (({ framer := {} } : FramerLog).callAll (some keeper) calls).run []
    let sets := last.1.framer.sets
    sets.sps = [0, 0, 0, 1, 0x67, 0x64, 0, 0, 0, 1] ∧ ¬ sets.SelfDelimiting ∧
      KeyedList.get? last.2 "0" = some sets.toBlob ∧ ParameterSets.ofBlob? sets.toBlob = none := by
  intro keeper calls last sets
  refine ⟨by decide +kernel, ?_, by decide +kernel, by decide +kernel⟩
  intro h
  have hslice := h 0x65 [0x88] (by decide) (by unfold CodeFree; decide)
  revert hslice
  decide +kernel

/-- Both sets end in zeros, in front of another start code and at the end of the frame. -/
theorem cached_pair_delimited_zeros :
    let keeper : Keeper (StateM Shelf) := { store := .memory, device := "0" }
    let calls : List FramerCall :=
      [.process [0, 0, 0, 1, 0x67, 0x64, 0, 0, 0, 0, 0, 0, 1, 0x68, 0, 0, 0]]
    let sets := ((({ framer := {} } : FramerLog).callAll (some keeper) calls).run []).1.framer.sets
    (∀ frame, .process frame ∈ calls → ¬ startCode <:+ frame) ∧
      sets.sps = [0, 0, 0, 1, 0x67, 0x64, 0, 0, 0] ∧ sets.pps = [0, 0, 0, 1, 0x68, 0, 0, 0] ∧
      sets.SelfDelimiting := by
  intro keeper calls sets
  have hcalls : ∀ frame, .process frame ∈ calls → ¬ startCode <:+ frame := by
    intro frame hframe
    obtain hframe := List.mem_singleton.mp hframe
    cases hframe
    decide
  refine ⟨hcalls, by decide +kernel, by decide +kernel, ?_⟩
  exact ((cached_pair_delimited (some keeper) defaultUnitLimit {} calls []).2.2 hcalls).1

end CamStream
