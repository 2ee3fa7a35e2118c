import MeshNoc.PlatformInit.Region

/-!
# Translation at every address

`addr_to_ptr` on all of the address space: the windows of the region instances, the four
windows its search for the PLICs reaches, and nothing else. The search computes the bases
of the PLIC windows with the stride `PLIC_SIZE`, while the memory map declares the C0C1 and
the NXY window of one instance side by side, and only the first instance has buffers.

## Main results

* `addrToPtr_of_ge`, `addrToPtr_of_uncovered` — the result outside the region instances
* `regionAgrees_iff` — classification and translation agree exactly outside the PLIC windows
  that are translated to a pointer
* `translationSound_iff` — a translated pointer is sound exactly outside the windows of the
  second instance
-/

namespace MeshNoc

open Lib

variable {a : Addr}

/-! ### The windows of the controllers -/

/-- One table entry, in natural numbers. -/
theorem translate_eq {base size : Addr} {ptr : Ptr Buffer}
    (fits : base.toNat + size.toNat < 2 ^ 64) : translate a base size ptr =
      if base.toNat ≤ a.toNat ∧ a.toNat < base.toNat + size.toNat then
        some (ptr.add (a.toNat - base.toNat)) else none := by
  unfold translate
  rw [if_congr (inRange_iff fits) rfl rfl]
  by_cases inside : base.toNat ≤ a.toNat ∧ a.toNat < base.toNat + size.toNat
  · rw [if_pos inside, if_pos inside, BitVec.toNat_sub_of_le (BitVec.le_def.mpr inside.1)]
  · rw [if_neg inside, if_neg inside]

/-- The two windows `addr_to_ptr` tries for instance `plic`: each starts where the NXY
window of the instance before it does. -/
theorem plicWindow_eq (p : MeshPlatform) (a : Addr) (plic : Fin 3) : plicWindow p a plic =
    (if 0x90000000 + 0x400000 * plic.val ≤ a.toNat ∧
          a.toNat < 0x90000000 + 0x400000 * plic.val + 0x400000 then
        some ((p.plicInstances plic).c0c1Ptr.add (a.toNat - (0x90000000 + 0x400000 * plic.val)))
      else none).or
    (if 0x90400000 + 0x400000 * plic.val ≤ a.toNat ∧
          a.toNat < 0x90400000 + 0x400000 * plic.val + 0x400000 then
        some ((p.plicInstances plic).nxyPtr.add (a.toNat - (0x90400000 + 0x400000 * plic.val)))
      else none) := by
  have hbases : ∀ plic : Fin 3,
      (plic0C0c1Base + BitVec.ofNat 64 plic * plicSize).toNat = 0x90000000 + 0x400000 * plic ∧
        (plic0NxyBase + BitVec.ofNat 64 plic * plicSize).toNat =
          0x90400000 + 0x400000 * plic := by decide
  have hsize : plicSize.toNat = 0x400000 := rfl
  obtain ⟨hc0c1, hnxy⟩ := hbases plic
  have hvalid := plic.isLt
  simp only [plicWindow]
  rw [translate_eq (by omega), translate_eq (by omega), hc0c1, hnxy, hsize]

/-- The buffers of the instances after set-up: only the first one has them. -/
theorem plicInstances_ptr : ∀ plic : Fin 3,
    (platformAfterSetup.plicInstances plic).c0c1Ptr =
        (if plic = 0 then (Buffer.plic .c0c1).ptr else .null) ∧
      (platformAfterSetup.plicInstances plic).nxyPtr =
        (if plic = 0 then (Buffer.plic .nxy).ptr else .null) := by
  decide

/-- No region instance reaches the controllers. -/
theorem Region.Covers.lt {r : Region} (covers : r.Covers a) : a.toNat < 0x90000000 := by
  have hrange := Region.covers_iff.mp covers
  cases r <;> simp only [Region.base, Region.length] at hrange <;> omega

/-- The pool is tried last, and only for the C0 master. -/
theorem translate_pool_miss (uncovered : ¬ Region.c0Master.Covers a) (ptr : Ptr Buffer) :
    translate a c0MasterBase c0MasterSize ptr = none :=
  if_neg fun hin => uncovered (inRange_c0Master.mp hin)

/-- Outside the region instances translation is the search for the controllers. -/
theorem addrToPtr_of_uncovered (uncovered : ∀ r : Region, ¬ r.Covers a) :
    addrToPtr platformAfterSetup a =
      ((List.finRange 3).findSome? (plicWindow platformAfterSetup a)).getD .null := by
  simp only [addrToPtr]
  rw [findSome?_dlm64_miss fun _ => uncovered _, findSome?_dlm1_512_miss fun _ => uncovered _,
    findSome?_dmaRegs_miss fun _ => uncovered _, findSome?_dmems_miss fun _ => uncovered _,
    translate_pool_miss (uncovered _)]
  simp only [ite_self, Option.none_or, Option.or_none]

/-- Between the region instances nothing is translated. -/
theorem addrToPtr_of_lt (below : a.toNat < 0x90000000)
    (uncovered : ∀ r : Region, ¬ r.Covers a) : addrToPtr platformAfterSetup a = .null := by
  have hplic : (List.finRange 3).findSome? (plicWindow platformAfterSetup a) = none :=
    List.findSome?_eq_none_iff.mpr fun plic _ => plicWindow_of_lt _ below plic
  rw [addrToPtr_of_uncovered uncovered, hplic]
  rfl

section Window

variable {p : MeshPlatform} {k : Fin 3}

/-- In the first of its two windows an instance answers with its C0C1 block, -/
theorem plicWindow_c0c1 (low : 0x90000000 + 0x400000 * k.val ≤ a.toNat)
    (high : a.toNat < 0x90400000 + 0x400000 * k.val) : plicWindow p a k =
      some ((p.plicInstances k).c0c1Ptr.add (a.toNat - (0x90000000 + 0x400000 * k.val))) := by
  rw [plicWindow_eq, if_pos (by omega), Option.some_or]

/-- in the second one with its NXY block, -/
theorem plicWindow_nxy (low : 0x90400000 + 0x400000 * k.val ≤ a.toNat)
    (high : a.toNat < 0x90800000 + 0x400000 * k.val) : plicWindow p a k =
      some ((p.plicInstances k).nxyPtr.add (a.toNat - (0x90400000 + 0x400000 * k.val))) := by
  rw [plicWindow_eq, if_neg (by omega), if_pos (by omega), Option.none_or]

/-- and behind them not at all. -/
theorem plicWindow_of_ge (high : 0x90800000 + 0x400000 * k.val ≤ a.toNat) :
    plicWindow p a k = none := by
  rw [plicWindow_eq, if_neg (by omega), if_neg (by omega), Option.none_or]

end Window

/-- From the controllers on: the two windows of the first instance, then two windows with
the null pointer as base, where the offset is added all the same. -/
theorem addrToPtr_of_ge (high : 0x90000000 ≤ a.toNat) : addrToPtr platformAfterSetup a =
    if a.toNat < 0x90400000 then (Buffer.plic .c0c1).ptr.add (a.toNat - 0x90000000)
    else if a.toNat < 0x90800000 then (Buffer.plic .nxy).ptr.add (a.toNat - 0x90400000)
    else if a.toNat < 0x90C00000 then Ptr.null.add (a.toNat - 0x90800000)
    else if a.toNat < 0x91000000 then Ptr.null.add (a.toNat - 0x90C00000)
    else .null := by
  have huncovered : ∀ r : Region, ¬ r.Covers a := by
    intro r covers
    have := covers.lt
    omega
  have hindices : List.finRange 3 = [0, 1, 2] := by decide
  rw [addrToPtr_of_uncovered huncovered, hindices]
  -- the C0C1 windows of the later instances are those of the NXY windows before them
  split_ifs with hc0c1 hnxy hnull₁ hnull₂
  · rw [List.findSome?_cons, plicWindow_c0c1 (k := 0) high hc0c1, (plicInstances_ptr 0).1]
    rfl
  · rw [List.findSome?_cons, plicWindow_nxy (k := 0) (not_lt.mp hc0c1) hnxy,
      (plicInstances_ptr 0).2]
    rfl
  · rw [List.findSome?_cons, plicWindow_of_ge (k := 0) (not_lt.mp hnxy), List.findSome?_cons,
      plicWindow_nxy (k := 1) (not_lt.mp hnxy) hnull₁, (plicInstances_ptr 1).2]
    rfl
  · have hnull : 0x90C00000 ≤ a.toNat := not_lt.mp hnull₁
    rw [List.findSome?_cons, plicWindow_of_ge (k := 0) (not_lt.mp hnxy), List.findSome?_cons,
      plicWindow_of_ge (k := 1) hnull, List.findSome?_cons,
      plicWindow_nxy (k := 2) hnull hnull₂, (plicInstances_ptr 2).2]
    rfl
  · rw [List.findSome?_cons, plicWindow_of_ge (k := 0) (not_lt.mp hnxy), List.findSome?_cons,
      plicWindow_of_ge (k := 1) (not_lt.mp hnull₁), List.findSome?_cons,
      plicWindow_of_ge (k := 2) (not_lt.mp hnull₂)]
    rfl

/-! ### Classification and translation -/

/-- The pointer that the region of `a` names: into the buffer of that kind that belongs to
the tile or the module of `a`, at the offset of `a` in the region. -/
def regionPtr (p : MeshPlatform) (a : Addr) : Option (Ptr Buffer) :=
  match getAddressRegion a with
  | .tileDlm64 => (p.nodes[(getTileIdFromAddress a).toNat]?).map fun node =>
      node.dlm64Ptr.add (a - node.dlm64BaseAddr).toNat
  | .tileDlm1_512 => (p.nodes[(getTileIdFromAddress a).toNat]?).map fun node =>
      node.dlm1_512Ptr.add (a - node.dlm1_512BaseAddr).toNat
  | .tileDmaReg => (p.nodes[(getTileIdFromAddress a).toNat]?).map fun node =>
      node.dmaRegsPtr.add (a - node.dmaRegBaseAddr).toNat
  | .dmem512 => (p.dmems[(getDmemIdFromAddress a).toNat]?).map fun dmem =>
      dmem.dmemPtr.add (a - dmem.dmemBaseAddr).toNat
  | .c0Master => some ((p.memoryPool.add 0x25000000).add (a - c0MasterBase).toNat)
  | .plicC0c1 => (List.finRange 3).findSome? fun plic : Fin 3 =>
      translate a (plicC0c1Bases.getD plic.val 0) plicSize (p.plicInstances plic).c0c1Ptr
  | .plicNxy => (List.finRange 3).findSome? fun plic : Fin 3 =>
      translate a (plicNxyBases.getD plic.val 0) plicSize (p.plicInstances plic).nxyPtr
  | .invalid => none

/-- Classification and translation agree at `a`. -/
structure RegionAgrees (p : MeshPlatform) (a : Addr) : Prop where
  translated_iff : addrToPtr p a ≠ .null ↔ getAddressRegion a ≠ .invalid
  ptr_eq : addrToPtr p a ≠ .null → regionPtr p a = some (addrToPtr p a)

theorem nodes_getElem? (tile : Fin 8) :
    platformAfterSetup.nodes[tile.val]? = some (tileNode tile) := by
  have hnodes : platformAfterSetup.nodes = (List.range 8).map tileNode :=
    List.map_congr_left fun i hi => if_pos (List.mem_range.mp hi)
  rw [hnodes, List.getElem?_map, List.getElem?_range tile.isLt]
  rfl

theorem dmems_getElem? (id : Fin 8) :
    platformAfterSetup.dmems[id.val]? = some (dmemEntry id) := by
  change ((List.range 8).map dmemEntry)[id.val]? = _
  rw [List.getElem?_map, List.getElem?_range id.isLt]
  rfl

/-- The offset in a region that starts at `base`. -/
theorem toNat_sub_of_base {base : Addr} {k : ℕ} (base_eq : base.toNat = k)
    (low : k ≤ a.toNat) : (a - base).toNat = a.toNat - k := by
  subst base_eq
  exact BitVec.toNat_sub_of_le (BitVec.le_def.mpr low)

/-- The region of an address of an instance names the instance's own storage. -/
theorem regionPtr_of_covers {r : Region} (covers : r.Covers a) :
    regionPtr platformAfterSetup a = some (regionPlacement.ptrAt r a.toNat) := by
  have hlow : r.base ≤ a.toNat := covers.1
  rw [regionPtr, getAddressRegion_of_covers covers, getTileIdFromAddress_of_covers covers,
    getDmemIdFromAddress_of_covers covers]
  cases r with
  | dlm64 tile =>
    have hbase : (tileNode tile).dlm64BaseAddr.toNat = (Region.dlm64 tile).base :=
      (tileBase_add_toNat tile.isLt (by decide)).trans (Nat.add_zero _)
    simp only [Region.kind, Region.tileId, Int.toNat_natCast, nodes_getElem?, Option.map_some,
      toNat_sub_of_base hbase hlow]
    rfl
  | dlm1_512 tile =>
    have hbase : (tileNode tile).dlm1_512BaseAddr.toNat = (Region.dlm1_512 tile).base :=
      tileBase_add_toNat tile.isLt (by decide)
    simp only [Region.kind, Region.tileId, Int.toNat_natCast, nodes_getElem?, Option.map_some,
      toNat_sub_of_base hbase hlow]
    rfl
  | dmem id =>
    have hbase : (dmemEntry id).dmemBaseAddr.toNat = (Region.dmem id).base :=
      dmemBase_toNat id.isLt
    simp only [Region.kind, Region.dmemId, Int.toNat_natCast, dmems_getElem?, Option.map_some,
      toNat_sub_of_base hbase hlow]
    rfl
  | c0Master =>
    have hbase : c0MasterBase.toNat = Region.c0Master.base := rfl
    simp only [Region.kind, toNat_sub_of_base hbase hlow]
    rfl

/-- Above the C0 master nothing is classified. -/
theorem getAddressRegion_of_uncovered (uncovered : ∀ r : Region, ¬ r.Covers a) :
    getAddressRegion a = .invalid := by
  by_contra valid
  obtain ⟨r, covers⟩ := exists_covers valid
  exact uncovered r covers

/-- On the region instances the two agree. -/
theorem Region.Covers.agrees {r : Region} (covers : r.Covers a) :
    RegionAgrees platformAfterSetup a where
  translated_iff := by
    rw [addrToPtr_of_covers covers, getAddressRegion_of_covers covers]
    exact iff_of_true (regionPlacement.ptrAt_ne_null r _) r.kind_ne_invalid
  ptr_eq _ := by rw [regionPtr_of_covers covers, addrToPtr_of_covers covers]

/-- Outside them they agree exactly where nothing is translated. -/
theorem regionAgrees_iff_null (uncovered : ∀ r : Region, ¬ r.Covers a) :
    RegionAgrees platformAfterSetup a ↔ addrToPtr platformAfterSetup a = .null := by
  have hinvalid := getAddressRegion_of_uncovered uncovered
  constructor
  · intro agrees
    by_contra translated
    exact agrees.translated_iff.mp translated hinvalid
  · intro hnull
    refine ⟨iff_of_false (fun h => h hnull) (fun h => h hinvalid), fun h => absurd hnull h⟩

theorem Ptr.add_eq_null_iff {p : Ptr Buffer} {n : ℕ} :
    p.add n = .null ↔ p.block = none ∧ p.offset + n = 0 := by
  simp only [Ptr.add, Ptr.null, Ptr.mk.injEq]

/-- Where in the controllers' addresses the translation is the null pointer. -/
theorem addrToPtr_eq_null_iff (high : 0x90000000 ≤ a.toNat) :
    addrToPtr platformAfterSetup a = .null ↔
      0x91000000 ≤ a.toNat ∨ a.toNat = 0x90800000 ∨ a.toNat = 0x90C00000 := by
  rw [addrToPtr_of_ge high]
  split_ifs with hc0c1 hnxy hnull₁ hnull₂
  · simp only [Ptr.add_eq_null_iff, Buffer.ptr, reduceCtorEq, false_and, false_iff]
    omega
  · simp only [Ptr.add_eq_null_iff, Buffer.ptr, reduceCtorEq, false_and, false_iff]
    omega
  · rw [Ptr.add_eq_null_iff, Ptr.null]
    simp only [true_and]
    omega
  · rw [Ptr.add_eq_null_iff, Ptr.null]
    simp only [true_and]
    omega
  · exact iff_of_true rfl (by omega)

/-- Region classification and pointer translation agree at an address if and only if it is
not in the PLIC windows that `addr_to_ptr` reaches, or is one of the two addresses there
that are translated to the null pointer. -/
theorem regionAgrees_iff {st : PlatformState} (setup : platformSetup = some st) (a : Addr) :
    RegionAgrees st.platform a ↔
      ¬ (0x90000000 ≤ a ∧ a < 0x91000000) ∨ a = 0x90800000 ∨ a = 0x90C00000 := by
  obtain rfl := Option.some.inj (platformSetup_eq.symm.trans setup)
  have hwindow : (0x90000000 : Addr) ≤ a ∧ a < 0x91000000 ↔
      0x90000000 ≤ a.toNat ∧ a.toNat < 0x91000000 := Iff.rfl
  have hpoints : a = 0x90800000 ∨ a = 0x90C00000 ↔
      a.toNat = 0x90800000 ∨ a.toNat = 0x90C00000 := by
    rw [← BitVec.toNat_inj, ← BitVec.toNat_inj]
    rfl
  rw [hwindow, hpoints]
  by_cases covered : ∃ r : Region, r.Covers a
  -- every region instance lies below the controllers
  · obtain ⟨r, covers⟩ := covered
    have := covers.lt
    exact iff_of_true covers.agrees (by omega)
  · have huncovered : ∀ r : Region, ¬ r.Covers a := fun r covers => covered ⟨r, covers⟩
    rw [regionAgrees_iff_null huncovered]
    by_cases low : a.toNat < 0x90000000
    · exact iff_of_true (addrToPtr_of_lt low huncovered) (by omega)
    · rw [addrToPtr_eq_null_iff (by omega)]
      omega

/-- The first address of DMEM3. -/
theorem regionAgrees_iff_dmem3 : ∃ st, platformSetup = some st ∧
    (RegionAgrees st.platform 0x10C00000 ↔
      ¬ ((0x90000000 : Addr) ≤ 0x10C00000 ∧ (0x10C00000 : Addr) < 0x91000000) ∨
        (0x10C00000 : Addr) = 0x90800000 ∨ (0x10C00000 : Addr) = 0x90C00000) :=
  ⟨_, platformSetup_eq, regionAgrees_iff platformSetup_eq 0x10C00000⟩

/-- The first register of the first PLIC is translated, but of no region. -/
theorem not_regionAgrees_plic : ∃ st, platformSetup = some st ∧
    ¬ RegionAgrees st.platform 0x90000000 := by
  refine ⟨_, platformSetup_eq, fun agrees => ?_⟩
  have htranslated : addrToPtr platformAfterSetup 0x90000000 ≠ .null := by decide +kernel
  exact agrees.translated_iff.mp htranslated (by decide +kernel)

/-! ### Sound pointers -/

/-- The allocations that `address_manager_init` and the loops of `platform_setup` make. -/
def Buffer.Allocated : Buffer → Prop
  | .memoryPool => True
  | .dlm64 tile | .dlm1_512 tile | .dmaRegs tile => tile < numTiles
  | .dmem id => id < numDmems
  | .plic _ => True

/-- The translation of `a` points into the buffer at `own`, or is the null pointer. -/
def InOwnBuffer (p : MeshPlatform) (a : Addr) (own : Ptr Buffer) : Prop :=
  addrToPtr p a = .null ∨
    (addrToPtr p a).block = own.block ∧ (addrToPtr p a).Within Buffer.size 1

/-- The translation of `a` is no dangling pointer, and in a declared PLIC window it belongs
to the instance whose window it is. -/
structure TranslationSound (p : MeshPlatform) (a : Addr) : Prop where
  null_or_inside : addrToPtr p a = .null ∨
    (∃ b : Buffer, b.Allocated ∧ (addrToPtr p a).block = some b) ∧
      (addrToPtr p a).Within Buffer.size 1
  c0c1_own : ∀ k : Fin 3, inRange a (plicC0c1Bases.getD k.val 0) plicSize = true →
    InOwnBuffer p a (p.plicInstances k).c0c1Ptr
  nxy_own : ∀ k : Fin 3, inRange a (plicNxyBases.getD k.val 0) plicSize = true →
    InOwnBuffer p a (p.plicInstances k).nxyPtr

/-- The declared windows: those of one instance side by side, `2 * PLIC_SIZE` apart. -/
theorem inRange_plicC0c1 (k : Fin 3) : inRange a (plicC0c1Bases.getD k.val 0) plicSize = true ↔
    0x90000000 + 0x800000 * k.val ≤ a.toNat ∧
      a.toNat < 0x90000000 + 0x800000 * k.val + 0x400000 := by
  have hbases : ∀ k : Fin 3,
      (plicC0c1Bases.getD k.val 0).toNat = 0x90000000 + 0x800000 * k.val := by decide
  have hsize : plicSize.toNat = 0x400000 := rfl
  have hbase := hbases k
  rw [inRange_iff (by omega), hbase, hsize]

theorem inRange_plicNxy (k : Fin 3) : inRange a (plicNxyBases.getD k.val 0) plicSize = true ↔
    0x90400000 + 0x800000 * k.val ≤ a.toNat ∧
      a.toNat < 0x90400000 + 0x800000 * k.val + 0x400000 := by
  have hbases : ∀ k : Fin 3,
      (plicNxyBases.getD k.val 0).toNat = 0x90400000 + 0x800000 * k.val := by decide
  have hsize : plicSize.toNat = 0x400000 := rfl
  have hbase := hbases k
  rw [inRange_iff (by omega), hbase, hsize]

theorem Region.buffer_allocated (r : Region) : r.buffer.Allocated := by
  cases r with
  | dlm64 tile => exact tile.isLt
  | dlm1_512 tile => exact tile.isLt
  | dmem id => exact id.isLt
  | c0Master => trivial

/-- The null pointer is sound everywhere. -/
theorem translationSound_of_null {p : MeshPlatform} (null : addrToPtr p a = .null) :
    TranslationSound p a :=
  ⟨.inl null, fun _ _ => .inl null, fun _ _ => .inl null⟩

/-- On the region instances the translation is sound. -/
theorem Region.Covers.sound {r : Region} (covers : r.Covers a) :
    TranslationSound platformAfterSetup a := by
  have hptr := addrToPtr_of_covers covers
  have hlt := covers.lt
  have hrange : regionPlacement.CoversRange r a.toNat 1 := ⟨covers.1, covers.2⟩
  refine ⟨.inr ⟨⟨r.buffer, r.buffer_allocated, ?_⟩, ?_⟩, fun k hk => ?_, fun k hk => ?_⟩
  · rw [hptr]
    rfl
  · rw [hptr]
    exact hrange.within (regionPlacement_fits r)
  -- the declared windows lie above every region instance
  · have := (inRange_plicC0c1 k).mp hk
    omega
  · have := (inRange_plicNxy k).mp hk
    omega

/-- A pointer into an allocation, as a base and an offset. -/
theorem Buffer.ptr_add_within {b : Buffer} {n : ℕ} (lt : n < b.size) :
    (b.ptr.add n).Within Buffer.size 1 := by
  change 0 + n + 1 ≤ b.size
  omega

/-- In the two windows of the first instance the translation is sound. -/
theorem translationSound_of_plic0 (high : 0x90000000 ≤ a.toNat) (low : a.toNat < 0x90800000) :
    TranslationSound platformAfterSetup a := by
  have hptr := addrToPtr_of_ge high
  have hsize : plicSize.toNat = 0x400000 := rfl
  by_cases hc0c1 : a.toNat < 0x90400000
  · rw [if_pos hc0c1] at hptr
    have hwithin : (addrToPtr platformAfterSetup a).Within Buffer.size 1 := by
      rw [hptr]
      exact Buffer.ptr_add_within (show _ < plicSize.toNat by omega)
    refine ⟨.inr ⟨⟨.plic .c0c1, trivial, by rw [hptr]; rfl⟩, hwithin⟩, fun k hk => ?_,
      fun k hk => ?_⟩
    -- of the declared windows only that of the first instance holds the address
    · have hwindow := (inRange_plicC0c1 k).mp hk
      obtain rfl : k = 0 := Fin.ext (show k.val = 0 by omega)
      exact .inr ⟨by rw [hptr]; rfl, hwithin⟩
    · have := (inRange_plicNxy k).mp hk
      omega
  · rw [if_neg hc0c1, if_pos low] at hptr
    have hwithin : (addrToPtr platformAfterSetup a).Within Buffer.size 1 := by
      rw [hptr]
      exact Buffer.ptr_add_within (show _ < plicSize.toNat by omega)
    refine ⟨.inr ⟨⟨.plic .nxy, trivial, by rw [hptr]; rfl⟩, hwithin⟩, fun k hk => ?_,
      fun k hk => ?_⟩
    · have := (inRange_plicC0c1 k).mp hk
      omega
    · have hwindow := (inRange_plicNxy k).mp hk
      obtain rfl : k = 0 := Fin.ext (show k.val = 0 by omega)
      exact .inr ⟨by rw [hptr]; rfl, hwithin⟩

/-- In the windows with a null base the pointer has no block, whatever its offset. -/
theorem addrToPtr_block_eq_none (high : 0x90800000 ≤ a.toNat) :
    (addrToPtr platformAfterSetup a).block = none := by
  rw [addrToPtr_of_ge (by omega), if_neg (by omega), if_neg (by omega)]
  split_ifs <;> rfl

/-- The translation of an address is sound if and only if the address is not in one of the
two windows without a buffer, behind its first address. -/
theorem translationSound_iff {st : PlatformState} (setup : platformSetup = some st) (a : Addr) :
    TranslationSound st.platform a ↔
      ¬ (0x90800000 < a ∧ a < 0x91000000 ∧ a ≠ 0x90C00000) := by
  obtain rfl := Option.some.inj (platformSetup_eq.symm.trans setup)
  have hwindow : (0x90800000 : Addr) < a ∧ a < 0x91000000 ∧ a ≠ 0x90C00000 ↔
      0x90800000 < a.toNat ∧ a.toNat < 0x91000000 ∧ a.toNat ≠ 0x90C00000 := by
    rw [ne_eq, ← BitVec.toNat_inj]
    rfl
  rw [hwindow]
  by_cases covered : ∃ r : Region, r.Covers a
  · obtain ⟨r, covers⟩ := covered
    have := covers.lt
    exact iff_of_true covers.sound (by omega)
  have huncovered : ∀ r : Region, ¬ r.Covers a := fun r covers => covered ⟨r, covers⟩
  by_cases low : a.toNat < 0x90000000
  · exact iff_of_true (translationSound_of_null (addrToPtr_of_lt low huncovered)) (by omega)
  by_cases plic0 : a.toNat < 0x90800000
  · exact iff_of_true (translationSound_of_plic0 (by omega) plic0) (by omega)
  have hnull := addrToPtr_eq_null_iff (a := a) (by omega)
  constructor
  · intro sound
    obtain null | ⟨⟨b, -, hblock⟩, -⟩ := sound.null_or_inside
    · have := hnull.mp null
      omega
    · rw [addrToPtr_block_eq_none (by omega)] at hblock
      simp at hblock
  · intro outside
    exact translationSound_of_null (hnull.mpr (by omega))

/-- The first register of the first PLIC. -/
theorem translationSound_iff_plic : ∃ st, platformSetup = some st ∧
    (TranslationSound st.platform 0x90000000 ↔
      ¬ ((0x90800000 : Addr) < 0x90000000 ∧ (0x90000000 : Addr) < 0x91000000 ∧
        (0x90000000 : Addr) ≠ 0x90C00000)) :=
  ⟨_, platformSetup_eq, translationSound_iff platformSetup_eq 0x90000000⟩

/-- The second word of the second PLIC: a pointer that is not null, without a buffer. -/
theorem not_translationSound_plic : ∃ st, platformSetup = some st ∧
    addrToPtr st.platform 0x90800004 ≠ .null ∧
      (addrToPtr st.platform 0x90800004).block = none ∧
        ¬ TranslationSound st.platform 0x90800004 := by
  have hptr : addrToPtr platformAfterSetup 0x90800004 = ⟨none, 4⟩ := by decide +kernel
  refine ⟨_, platformSetup_eq, by rw [hptr]; decide, by rw [hptr], fun sound => ?_⟩
  obtain null | ⟨⟨b, -, hblock⟩, -⟩ := sound.null_or_inside
  · rw [hptr] at null
    exact absurd null (by decide)
  · rw [hptr] at hblock
    simp at hblock

end MeshNoc
