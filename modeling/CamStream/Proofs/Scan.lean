import CamStream.Nal.Scan

/-!
# Scanning what was put together from units

A unit that a scan found can be put next to other units, and a scan finds it again. This holds as
soon as no start code occurs in its body, which is what every unit but the last one of a buffer
satisfies, and the last one too unless the buffer ends in a bare start code.

* `breakAtUnit_free_append`: the search for the next unit passes over bytes without a start code
  and stops at once where a unit begins. Bytes in front of a start code never complete another
  one, because a start code has zeros in all places but the last.
* `scan_append_flatten`: units behind each other, after bytes without a start code, are scanned
  as they are, each where the ones before it end.
* `scan_eq_take`: a scan with a budget gives the first units of the whole scan.
* `whole_of_mem_scan`: the units of a buffer that does not end in a bare start code are whole.
* `startCode_place_flatten`: no start code arises across a seam between whole units.
-/

namespace CamStream

/-! ## Where units begin -/

/-- No start code occurs among the bytes. -/
def CodeFree (bytes : Bytes) : Prop := ¬ startCode <:+: bytes

/-- What is left of a scan: nothing, or bytes at whose head a unit begins. -/
def Aligned (bytes : Bytes) : Prop := bytes = [] ∨ beginsUnit bytes = true

theorem beginsUnit_iff {bytes : Bytes} :
    beginsUnit bytes = true ↔ ∃ header tail, bytes = startCode ++ header :: tail := by
  constructor
  · intro h
    unfold beginsUnit at h
    split at h
    · rename_i a b c d header tail
      simp only [Bool.and_eq_true, beq_iff_eq] at h
      obtain ⟨⟨⟨rfl, rfl⟩, rfl⟩, rfl⟩ := h
      exact ⟨header, tail, rfl⟩
    · cases h
  · rintro ⟨header, tail, rfl⟩
    rfl

theorem aligned_cons {header : UInt8} {tail : Bytes} : Aligned (startCode ++ header :: tail) :=
  Or.inr (beginsUnit_iff.mpr ⟨header, tail, rfl⟩)

theorem aligned_breakAtUnit (bytes : Bytes) : Aligned (breakAtUnit bytes).2 := by
  induction bytes with
  | nil => exact Or.inl rfl
  | cons byte rest ih =>
    by_cases h : beginsUnit (byte :: rest)
    · simp only [breakAtUnit, h, if_true]
      exact Or.inr h
    · simpa [breakAtUnit, h] using ih

theorem codeFree_nil : CodeFree [] := by simp [CodeFree, startCode]

theorem CodeFree.tail {byte : UInt8} {rest : Bytes} (h : CodeFree (byte :: rest)) :
    CodeFree rest := fun hin => h (List.infix_cons hin)

/-- A start code that begins in front of a seam ends in front of it too, when a unit begins behind
the seam: all that a start code could take from the next one are zeros. -/
theorem startCode_prefix_of_append {body rest after : Bytes} (hbody : body ≠ [])
    (hrest : Aligned rest) (h : body ++ rest = startCode ++ after) : startCode <+: body := by
  rcases hrest with rfl | hrest
  · rw [List.append_nil] at h
    exact ⟨after, h.symm⟩
  · obtain ⟨header, tail, rfl⟩ := beginsUnit_iff.mp hrest
    match body, hbody, h with
    | [_], _, h => simp [startCode] at h
    | [_, _], _, h => simp [startCode] at h
    | [_, _, _], _, h => simp [startCode] at h
    | a :: b :: c :: d :: body, _, h =>
      simp only [startCode, List.cons_append, List.nil_append, List.cons.injEq] at h
      obtain ⟨rfl, rfl, rfl, rfl, -⟩ := h
      exact ⟨body, rfl⟩

theorem not_beginsUnit_of_codeFree {byte : UInt8} {body rest : Bytes}
    (hfree : CodeFree (byte :: body)) (hrest : Aligned rest) :
    beginsUnit (byte :: body ++ rest) = false := by
  rw [Bool.eq_false_iff]
  intro h
  obtain ⟨header, tail, heq⟩ := beginsUnit_iff.mp h
  exact hfree (startCode_prefix_of_append (List.cons_ne_nil _ _) hrest heq).isInfix

/-- The search for the next unit goes through bytes without a start code up to the next unit. -/
theorem breakAtUnit_free_append {body rest : Bytes} (hfree : CodeFree body) (hrest : Aligned rest) :
    breakAtUnit (body ++ rest) = (body, rest) := by
  induction body with
  | nil =>
    rcases hrest with rfl | hrest
    · rfl
    · obtain ⟨header, tail, rfl⟩ := beginsUnit_iff.mp hrest
      rfl
  | cons byte body ih =>
    have hno := not_beginsUnit_of_codeFree hfree hrest
    rw [List.cons_append] at hno ⊢
    rw [breakAtUnit, hno, ih hfree.tail]
    rfl

/-- The search stops at a place where a unit begins, if not before. -/
theorem length_fst_breakAtUnit_le (before : Bytes) {rest : Bytes} (h : beginsUnit rest = true) :
    (breakAtUnit (before ++ rest)).1.length ≤ before.length := by
  induction before with
  | nil =>
    obtain ⟨header, tail, rfl⟩ := beginsUnit_iff.mp h
    exact Nat.le_refl _
  | cons byte before ih =>
    by_cases hbegin : beginsUnit (byte :: (before ++ rest))
    · simp [breakAtUnit, hbegin]
    · simpa [breakAtUnit, hbegin] using ih

/-- Bytes that end in a start code cannot lie in front of the next unit: with the first byte behind
them the unit would have begun earlier. -/
theorem not_startCode_suffix_of_fst_breakAtUnit {body rest : Bytes}
    (h : (breakAtUnit (body ++ rest)).1 = body) (hrest : rest ≠ []) : ¬ startCode <:+ body := by
  rintro ⟨before, rfl⟩
  obtain ⟨header, tail, rfl⟩ := List.exists_cons_of_ne_nil hrest
  have hbegin : beginsUnit (startCode ++ header :: tail) = true :=
    beginsUnit_iff.mpr ⟨header, tail, rfl⟩
  have hle := length_fst_breakAtUnit_le before hbegin
  rw [← List.append_assoc, h, List.length_append] at hle
  simp only [startCode, List.length_cons, List.length_nil] at hle
  omega

/-- What lies in front of the next unit can end in a start code only where the buffer ends. -/
theorem startCode_suffix_of_fst_breakAtUnit {bytes : Bytes}
    (h : startCode <:+ (breakAtUnit bytes).1) : startCode <:+ bytes := by
  have hsplit := breakAtUnit_append bytes
  by_cases hrest : (breakAtUnit bytes).2 = []
  · rw [hrest, List.append_nil] at hsplit
    rwa [hsplit] at h
  · refine absurd h (not_startCode_suffix_of_fst_breakAtUnit ?_ hrest)
    rw [hsplit]

/-- What lies in front of the next unit has no start code, unless it ends in one. -/
theorem codeFree_fst_breakAtUnit {bytes : Bytes} (h : ¬ startCode <:+ (breakAtUnit bytes).1) :
    CodeFree (breakAtUnit bytes).1 := by
  induction bytes with
  | nil => simp [CodeFree, breakAtUnit, startCode]
  | cons byte rest ih =>
    by_cases hbegin : beginsUnit (byte :: rest)
    · simp [CodeFree, breakAtUnit, hbegin, startCode]
    · have hfirst : (breakAtUnit (byte :: rest)).1 = byte :: (breakAtUnit rest).1 := by
        simp [breakAtUnit, hbegin]
      rw [hfirst] at h ⊢
      have hrest : ¬ startCode <:+ (breakAtUnit rest).1 := fun hs =>
        h (hs.trans (List.suffix_cons byte _))
      intro hin
      rcases List.infix_cons_iff.mp hin with ⟨more, hpre⟩ | hin
      · cases more with
        | nil => exact h ⟨[], by simpa using hpre⟩
        | cons header more =>
          -- With a header behind it the start code begins a unit.
          have hall : byte :: rest = startCode ++ header :: (more ++ (breakAtUnit rest).2) := by
            rw [← List.cons_append, ← List.append_assoc, hpre, List.cons_append,
              breakAtUnit_append rest]
          exact hbegin (beginsUnit_iff.mpr ⟨header, _, hall⟩)
      · exact ih hrest hin

/-! ## Whole units -/

/-- A start code, a header byte and a body in which no start code occurs. -/
def WholeUnit (bytes : Bytes) : Prop :=
  ∃ header body, bytes = startCode ++ header :: body ∧ CodeFree body

/-- The kind that the header byte of a unit announces. -/
def kindOfUnit (bytes : Bytes) : NalKind := .ofHeader (bytes.getD startCode.length 0)

/-- Units one behind the other, the first one at the given offset. -/
def layOut (offset : Nat) : List Bytes → List NalUnit
  | [] => []
  | bytes :: rest =>
    { offset, bytes, kind := kindOfUnit bytes } :: layOut (offset + bytes.length) rest

theorem layOut_map (offset : Nat) (units : List Bytes) :
    (layOut offset units).map (fun unit => (unit.kind, unit.bytes)) =
      units.map fun bytes => (kindOfUnit bytes, bytes) := by
  induction units generalizing offset with
  | nil => rfl
  | cons bytes rest ih => simp [layOut, ih]

theorem length_layOut (offset : Nat) (units : List Bytes) :
    (layOut offset units).length = units.length := by
  induction units generalizing offset with
  | nil => rfl
  | cons bytes rest ih => simp [layOut, ih]

/-- Every unit lies behind all that come before it. -/
theorem getElem?_layOut (offset : Nat) (units : List Bytes) (i : Nat) :
    (layOut offset units)[i]? = units[i]?.map fun bytes =>
      { offset := offset + (units.take i).flatten.length, bytes, kind := kindOfUnit bytes } := by
  induction units generalizing offset i with
  | nil => rfl
  | cons bytes rest ih =>
    cases i with
    | zero => rfl
    | succ i =>
      rw [layOut, List.getElem?_cons_succ, List.getElem?_cons_succ, ih, List.take_succ_cons,
        List.flatten_cons, List.length_append, Nat.add_assoc]

theorem WholeUnit.minUnitLength_le {bytes : Bytes} (h : WholeUnit bytes) :
    minUnitLength ≤ bytes.length := by
  obtain ⟨header, body, rfl, -⟩ := h
  simp only [minUnitLength, List.length_append, List.length_cons]
  omega

theorem aligned_flatten {units : List Bytes} (h : ∀ bytes ∈ units, WholeUnit bytes) :
    Aligned units.flatten := by
  cases units with
  | nil => exact Or.inl rfl
  | cons bytes rest =>
    obtain ⟨header, body, rfl, -⟩ := h _ List.mem_cons_self
    rw [List.flatten_cons, List.append_assoc, List.cons_append]
    exact aligned_cons

theorem length_le_length_flatten {units : List Bytes} (h : ∀ bytes ∈ units, WholeUnit bytes) :
    units.length ≤ units.flatten.length := by
  induction units with
  | nil => exact Nat.le_refl _
  | cons bytes rest ih =>
    have hfirst := (h bytes List.mem_cons_self).minUnitLength_le
    have hrest := ih fun other hother => h other (List.mem_cons_of_mem _ hother)
    simp only [minUnitLength, startCode, List.length_cons, List.length_nil] at hfirst
    simp only [List.length_cons, List.flatten_cons, List.length_append]
    omega

namespace Cursor

/-! ## The units a cursor yields -/

theorem toList_of_next {cursor after : Cursor} {unit : NalUnit}
    (h : cursor.next = (some unit, after)) : cursor.toList = unit :: after.toList := by
  rw [toList]
  split
  · rename_i unit' after' h'
    rw [h] at h'
    cases h'
    rfl
  · rename_i h'
    rw [h] at h'
    cases h'

theorem toList_of_next_none {cursor after : Cursor} (h : cursor.next = (none, after)) :
    cursor.toList = [] := by
  rw [toList]
  split
  · rename_i h'
    rw [h] at h'
    cases h'
  · rfl

theorem toList_budget_zero (offset : Nat) (rest : Bytes) :
    ({ offset, rest, budget := 0 } : Cursor).toList = [] := toList_of_next_none rfl

theorem toList_rest_nil (offset budget : Nat) :
    ({ offset, rest := [], budget } : Cursor).toList = [] := by
  cases budget with
  | zero => exact toList_budget_zero offset []
  | succ budget => exact toList_of_next_none rfl

/-- One step of a cursor that stands at the head of a unit. -/
theorem toList_cons (offset budget : Nat) (header : UInt8) (tail : Bytes) :
    ({ offset, rest := startCode ++ header :: tail, budget := budget + 1 } : Cursor).toList =
      { offset, bytes := startCode ++ header :: (breakAtUnit tail).1, kind := .ofHeader header } ::
        ({ offset := offset + (startCode ++ header :: (breakAtUnit tail).1).length,
           rest := (breakAtUnit tail).2, budget } : Cursor).toList :=
  toList_of_next rfl

theorem toList_layOut {units : List Bytes} (h : ∀ bytes ∈ units, WholeUnit bytes)
    (offset budget : Nat) :
    ({ offset, rest := units.flatten, budget } : Cursor).toList =
      (layOut offset units).take budget := by
  induction units generalizing offset budget with
  | nil => simpa [layOut] using toList_rest_nil offset budget
  | cons bytes rest ih =>
    have hrest : ∀ other ∈ rest, WholeUnit other := fun other hother =>
      h other (List.mem_cons_of_mem _ hother)
    obtain ⟨header, body, rfl, hfree⟩ := h _ List.mem_cons_self
    cases budget with
    | zero => simpa using toList_budget_zero offset _
    | succ budget =>
      rw [List.flatten_cons, List.append_assoc, List.cons_append, toList_cons,
        breakAtUnit_free_append hfree (aligned_flatten hrest), ih hrest]
      rfl

/-- A smaller budget yields the first units of what a larger one yields. -/
theorem toList_take {rest : Bytes} (h : Aligned rest) (offset budget more : Nat) :
    ({ offset, rest, budget } : Cursor).toList =
      ({ offset, rest, budget := budget + more } : Cursor).toList.take budget := by
  induction budget generalizing offset rest with
  | zero => simpa using toList_budget_zero offset rest
  | succ budget ih =>
    rcases h with rfl | h
    · simp only [toList_rest_nil, List.take_nil]
    · obtain ⟨header, tail, rfl⟩ := beginsUnit_iff.mp h
      rw [Nat.add_right_comm, toList_cons, toList_cons, List.take_succ_cons,
        ih (aligned_breakAtUnit tail)]

/-- Every unit takes at least its start code and header from the rest. -/
theorem length_toList_le {rest : Bytes} (h : Aligned rest) (offset budget : Nat) :
    minUnitLength * ({ offset, rest, budget } : Cursor).toList.length ≤ rest.length := by
  induction budget generalizing offset rest with
  | zero => simp [toList_budget_zero]
  | succ budget ih =>
    rcases h with rfl | h
    · simp [toList_rest_nil]
    · obtain ⟨header, tail, rfl⟩ := beginsUnit_iff.mp h
      have hmore := ih (aligned_breakAtUnit tail)
        (offset + (startCode ++ header :: (breakAtUnit tail).1).length)
      have hsplit := breakAtUnit_length tail
      rw [toList_cons, List.length_cons, Nat.mul_succ]
      simp only [List.length_append, List.length_cons, minUnitLength] at hmore ⊢
      omega

/-- What a cursor yields are units. A start code occurs in the body of one only if the body ends in
it, and then the bytes do. -/
theorem mem_toList {rest : Bytes} (h : Aligned rest) {offset budget : Nat} {unit : NalUnit}
    (hunit : unit ∈ ({ offset, rest, budget } : Cursor).toList) :
    ∃ header body, unit.bytes = startCode ++ header :: body ∧ unit.kind = .ofHeader header ∧
      (¬ startCode <:+ body → CodeFree body) ∧ (startCode <:+ body → startCode <:+ rest) := by
  induction budget generalizing offset rest with
  | zero => simp [toList_budget_zero] at hunit
  | succ budget ih =>
    rcases h with rfl | h
    · simp [toList_rest_nil] at hunit
    · obtain ⟨header, tail, rfl⟩ := beginsUnit_iff.mp h
      have htail : tail <:+ startCode ++ header :: tail := ⟨startCode ++ [header], by simp⟩
      have hrest : (breakAtUnit tail).2 <:+ tail := ⟨_, breakAtUnit_append tail⟩
      rw [toList_cons] at hunit
      rcases List.mem_cons.mp hunit with rfl | hunit
      · exact ⟨header, _, rfl, rfl, codeFree_fst_breakAtUnit, fun hs =>
          (startCode_suffix_of_fst_breakAtUnit hs).trans htail⟩
      · obtain ⟨header', body, hbytes, hkind, hfree, hend⟩ := ih (aligned_breakAtUnit tail) hunit
        exact ⟨header', body, hbytes, hkind, hfree, fun hs =>
          (hend hs).trans (hrest.trans htail)⟩

/-- A cursor that yields the bytes in front of it as one unit goes on behind them. -/
theorem rest_of_toList_append {offset budget : Nat} {header : UInt8} {body rest : Bytes}
    {more : List Bytes}
    (h : (({ offset, rest := startCode ++ header :: (body ++ rest), budget } : Cursor).toList).map
      (·.bytes) = (startCode ++ header :: body) :: more) :
    breakAtUnit (body ++ rest) = (body, rest) ∧
      ∃ offset budget, (({ offset, rest, budget } : Cursor).toList).map (·.bytes) = more := by
  cases budget with
  | zero => simp [toList_budget_zero] at h
  | succ budget =>
    rw [toList_cons, List.map_cons, List.cons.injEq] at h
    obtain ⟨hunit, hmore⟩ := h
    have hbody : (breakAtUnit (body ++ rest)).1 = body := by simpa using hunit
    have hsplit := breakAtUnit_append (body ++ rest)
    rw [hbody, List.append_cancel_left_eq] at hsplit
    rw [hsplit] at hmore
    exact ⟨Prod.ext hbody hsplit, _, _, hmore⟩

end Cursor

/-! ## Scans of a buffer -/

/-- A scan with a budget gives the first units of the whole scan. -/
theorem scan_eq_take (buffer : Bytes) (budget : Nat) :
    scan buffer budget = (scanAll buffer).take budget := by
  have haligned := aligned_breakAtUnit buffer
  rcases Nat.le_total budget buffer.length with hle | hle
  · obtain ⟨more, hmore⟩ := Nat.exists_eq_add_of_le hle
    unfold scanAll scan Cursor.ofBytes
    rw [hmore]
    exact Cursor.toList_take haligned _ budget more
  · obtain ⟨more, hmore⟩ := Nat.exists_eq_add_of_le hle
    have hall : scanAll buffer = (scan buffer budget).take buffer.length := by
      unfold scanAll scan Cursor.ofBytes
      rw [hmore]
      exact Cursor.toList_take haligned _ buffer.length more
    have hlength : (scan buffer budget).length ≤ buffer.length := by
      have hunits := Cursor.length_toList_le haligned (breakAtUnit buffer).1.length budget
      have hsplit := breakAtUnit_length buffer
      simp only [minUnitLength, startCode, List.length_cons, List.length_nil] at hunits
      unfold scan Cursor.ofBytes
      dsimp only
      omega
    rw [hall, List.take_of_length_le hlength, List.take_of_length_le (Nat.le_trans hlength hle)]

/-- The scan of a buffer that begins with a unit has nothing to skip. -/
theorem scan_of_aligned {buffer : Bytes} (h : Aligned buffer) (budget : Nat) :
    scan buffer budget = ({ offset := 0, rest := buffer, budget } : Cursor).toList := by
  have hbreak := breakAtUnit_free_append codeFree_nil h
  rw [List.nil_append] at hbreak
  unfold scan Cursor.ofBytes
  rw [hbreak]
  rfl

/-- A scanned unit begins with a start code and the header byte that announces its kind. -/
theorem header_of_mem_scan {buffer : Bytes} {budget : Nat} {unit : NalUnit}
    (h : unit ∈ scan buffer budget) :
    ∃ header body, unit.bytes = startCode ++ header :: body ∧ unit.kind = .ofHeader header := by
  obtain ⟨header, body, hbytes, hkind, -, -⟩ := Cursor.mem_toList (aligned_breakAtUnit buffer) h
  exact ⟨header, body, hbytes, hkind⟩

/-- The units of a buffer that does not end in a bare start code are whole. -/
theorem whole_of_mem_scan {buffer : Bytes} (hend : ¬ startCode <:+ buffer) {budget : Nat}
    {unit : NalUnit} (h : unit ∈ scan buffer budget) :
    WholeUnit unit.bytes ∧ unit.kind = kindOfUnit unit.bytes := by
  obtain ⟨header, body, hbytes, hkind, hfree, hsuffix⟩ :=
    Cursor.mem_toList (aligned_breakAtUnit buffer) h
  have hrest : (breakAtUnit buffer).2 <:+ buffer := ⟨_, breakAtUnit_append buffer⟩
  refine ⟨⟨header, body, hbytes, hfree fun hs => hend ((hsuffix hs).trans hrest)⟩, ?_⟩
  rw [hkind, hbytes]
  rfl

/-- Whole units after bytes without a start code are scanned as they are. -/
theorem scan_append_flatten {before : Bytes} (hfree : CodeFree before) {units : List Bytes}
    (h : ∀ bytes ∈ units, WholeUnit bytes) (budget : Nat) :
    scan (before ++ units.flatten) budget = (layOut before.length units).take budget := by
  unfold scan Cursor.ofBytes
  rw [breakAtUnit_free_append hfree (aligned_flatten h)]
  exact Cursor.toList_layOut h before.length budget

/-- The budget of a whole scan is enough for them. -/
theorem scanAll_append_flatten {before : Bytes} (hfree : CodeFree before) {units : List Bytes}
    (h : ∀ bytes ∈ units, WholeUnit bytes) :
    scanAll (before ++ units.flatten) = layOut before.length units := by
  rw [scanAll, scan_append_flatten hfree h, List.take_of_length_le]
  rw [length_layOut, List.length_append]
  exact Nat.le_trans (length_le_length_flatten h) (Nat.le_add_left _ _)

/-- Whole units one behind the other are scanned as they are. -/
theorem scanAll_flatten {units : List Bytes} (h : ∀ bytes ∈ units, WholeUnit bytes) :
    scanAll units.flatten = layOut 0 units := scanAll_append_flatten codeFree_nil h

/-- A start code lies wholly on one side of a seam behind which a unit begins. -/
theorem startCode_beside_seam {left right before after : Bytes} (hright : Aligned right)
    (h : left ++ right = before ++ startCode ++ after) :
    before.length + startCode.length ≤ left.length ∨ left.length ≤ before.length := by
  rw [List.append_assoc] at h
  rcases List.append_eq_append_iff.mp h with ⟨more, rfl, -⟩ | ⟨body, rfl, hbody⟩
  · exact Or.inr (by simp)
  · by_cases hnil : body = []
    · exact Or.inr (by simp [hnil])
    · have hpre := startCode_prefix_of_append hnil hright hbody.symm
      have hlength := hpre.length_le
      exact Or.inl (by rw [List.length_append]; omega)

/-- A start code inside a whole unit is its own, or begins with a header byte of zero. -/
theorem WholeUnit.startCode_place {bytes before after : Bytes} (h : WholeUnit bytes)
    (heq : bytes = before ++ startCode ++ after) :
    before = [] ∨ before = startCode ∧ kindOfUnit bytes = .other 0 := by
  obtain ⟨header, body, rfl, hfree⟩ := h
  rw [List.append_assoc] at heq
  match before, heq with
  | [], _ => exact Or.inl rfl
  | [_], heq => simp [startCode] at heq
  | [_, _], heq => simp [startCode] at heq
  | [_, _, _], heq => simp [startCode] at heq
  | a :: b :: c :: d :: before, heq =>
    simp only [startCode, List.cons_append, List.nil_append, List.cons.injEq] at heq
    obtain ⟨rfl, rfl, rfl, rfl, hrest⟩ := heq
    cases before with
    | nil =>
      obtain ⟨rfl, -⟩ := List.cons.inj hrest
      have hkind : NalKind.ofHeader 0 = .other 0 := by decide
      exact Or.inr ⟨rfl, hkind⟩
    | cons first before =>
      obtain ⟨-, rfl⟩ := List.cons.inj hrest
      exact absurd ⟨before, after, by simp [startCode]⟩ hfree

/-- Among whole units one behind the other, a start code lies inside one of them. -/
theorem startCode_place_flatten {units : List Bytes} (h : ∀ bytes ∈ units, WholeUnit bytes)
    {before after : Bytes} (heq : units.flatten = before ++ startCode ++ after) :
    ∃ earlier inside rest later, units = earlier ++ (inside ++ startCode ++ rest) :: later ∧
      before = earlier.flatten ++ inside := by
  induction units generalizing before with
  | nil => simp [startCode] at heq
  | cons unit units ih =>
    have hunits : ∀ bytes ∈ units, WholeUnit bytes := fun bytes hbytes =>
      h bytes (List.mem_cons_of_mem _ hbytes)
    rw [List.flatten_cons] at heq
    rcases startCode_beside_seam (aligned_flatten hunits) heq with hle | hle
    · have hhead : before ++ startCode <+: unit := by
        refine List.prefix_of_prefix_length_le ⟨after, heq.symm⟩ ⟨units.flatten, rfl⟩ ?_
        rwa [List.length_append]
      obtain ⟨rest, rfl⟩ := hhead
      exact ⟨[], before, rest, units, rfl, rfl⟩
    · have hhead : unit <+: before := by
        refine List.prefix_of_prefix_length_le ⟨units.flatten, heq⟩ ?_ hle
        exact ⟨startCode ++ after, by rw [List.append_assoc]⟩
      obtain ⟨behind, rfl⟩ := hhead
      rw [List.append_assoc, List.append_assoc, List.append_cancel_left_eq,
        ← List.append_assoc] at heq
      obtain ⟨earlier, inside, rest, later, hsplit, hbefore⟩ := ih hunits heq
      exact ⟨unit :: earlier, inside, rest, later, by rw [hsplit]; rfl, by
        rw [hbefore, List.flatten_cons, List.append_assoc]⟩

end CamStream
