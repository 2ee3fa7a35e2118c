import MeshNoc.PlatformInit.SystemSetup
import MeshNoc.Lib.Placement
import MeshNoc.Lib.FirstMatch

/-!
# Region instances

The address space of the platform as `platform_setup` leaves it: twenty-five disjoint
windows, one for each memory of each tile, each DMEM module and the C0 master, every one
stored in its own allocation. The searches of the address manager are all lookups in
this placement.

## Main results

* `addrToPtr_of_covers` — translation is affine on every window
* `getAddressRegion_of_covers`, `exists_covers` — classification finds exactly the windows
* `Region.eq_of_ids` — the kind of an address, its tile and its module tell its window
-/

namespace MeshNoc

open Lib

/-- The region instances. -/
inductive Region
  | dlm64 (tile : Fin 8)
  | dlm1_512 (tile : Fin 8)
  | dmem (id : Fin 8)
  | c0Master
  deriving DecidableEq, Repr

namespace Region

/-- The first address of an instance. -/
def base : Region → ℕ
  | dlm64 tile => 0x100000 * tile
  | dlm1_512 tile => 0x100000 * tile + 0x8000
  | dmem id => 0x10000000 * (1 + id / 4) + 0x400000 * (id % 4)
  | c0Master => 0x80000000

/-- The number of addresses of an instance. -/
def length : Region → ℕ
  | dlm64 _ => 0x8000
  | dlm1_512 _ => 0x20000
  | dmem _ => 0x40000
  | c0Master => 0x10000

/-- The allocation an instance is stored in. -/
def buffer : Region → Buffer
  | dlm64 tile => .dlm64 tile
  | dlm1_512 tile => .dlm1_512 tile
  | dmem id => .dmem id
  | c0Master => .memoryPool

/-- Where in its allocation an instance starts. -/
def start : Region → ℕ
  | c0Master => 0x25000000
  | _ => 0

/-- The kind `get_address_region` gives an instance. -/
def kind : Region → AddrRegion
  | dlm64 _ => .tileDlm64
  | dlm1_512 _ => .tileDlm1_512
  | dmem _ => .dmem512
  | c0Master => .c0Master

/-- The tile of an instance, `-1` without one. -/
def tileId : Region → ℤ
  | dlm64 tile | dlm1_512 tile => tile
  | dmem _ | c0Master => -1

/-- The DMEM module of an instance, `-1` without one. -/
def dmemId : Region → ℤ
  | dmem id => id
  | _ => -1

theorem eq_of_ids {r s : Region} (kinds : r.kind = s.kind) (tiles : r.tileId = s.tileId)
    (dmems : r.dmemId = s.dmemId) : r = s := by
  -- the kind tells the constructor, the tile or the module its index
  cases r <;> cases s <;> simp_all [kind, tileId, dmemId, Fin.ext_iff]

theorem base_add_length_lt (r : Region) : r.base + r.length < 2 ^ 64 := by
  cases r <;> simp only [base, length] <;> omega

theorem kind_ne_invalid (r : Region) : r.kind ≠ .invalid := by cases r <;> simp [kind]

end Region

/-- The placement of the region instances in the allocations. -/
def regionPlacement : Placement Region Buffer where
  base := Region.base
  length := Region.length
  block := Region.buffer
  start := Region.start
  windows_disjoint := by
    intro i j a
    -- the tiles are `0x100000` apart and a tile's two windows do not meet; the modules and
    -- the C0 master lie above every tile
    cases i <;> cases j <;> simp only [Region.base, Region.length, Region.dlm64.injEq,
      Region.dlm1_512.injEq, Region.dmem.injEq, Fin.ext_iff, reduceCtorEq, imp_false,
      implies_true] <;> omega
  storage_disjoint := by
    intro i j k hblock
    -- every instance has an allocation of its own
    cases i <;> cases j <;> simp_all [Region.buffer, Fin.ext_iff]

/-- Address `a` lies in instance `r`. -/
abbrev Region.Covers (r : Region) (a : Addr) : Prop := regionPlacement.Covers r a.toNat

theorem Region.covers_iff {r : Region} {a : Addr} :
    r.Covers a ↔ r.base ≤ a.toNat ∧ a.toNat < r.base + r.length := Iff.rfl

/-- Every instance fits into its allocation. -/
theorem regionPlacement_fits (r : Region) :
    regionPlacement.start r + regionPlacement.length r ≤ (regionPlacement.block r).size := by
  cases r with
  | dlm64 tile => exact (by decide : 0 + 0x8000 ≤ dlm64Size.toNat)
  | dlm1_512 tile => exact (by decide : 0 + 0x20000 ≤ dlm1_512Size.toNat)
  | dmem id => exact (by decide : 0 + 0x40000 ≤ dmem512Size.toNat)
  | c0Master => exact (by decide : 0x25000000 + 0x10000 ≤ 0x30000000)

/-! ### Windows -/

variable {a base size : Addr}

/-- In a window that does not reach the end of the address space membership is an
interval test. -/
theorem inRange_iff (fits : base.toNat + size.toNat < 2 ^ 64) :
    inRange a base size = true ↔ base.toNat ≤ a.toNat ∧ a.toNat < base.toNat + size.toNat := by
  simp only [inRange, Bool.and_eq_true, decide_eq_true_eq, BitVec.le_def, BitVec.lt_def,
    BitVec.toNat_add, Nat.mod_eq_of_lt fits]

section Search

variable {ε : Type*} {table : List ε} {entryBase entrySize : ε → Addr}
  {entryPtr : ε → Ptr Buffer} {e : ε}

/-- A table search that one entry only answers. -/
theorem findSome?_translate_hit (mem : e ∈ table)
    (hit : inRange a (entryBase e) (entrySize e) = true)
    (unique : ∀ e' ∈ table, inRange a (entryBase e') (entrySize e') = true → e' = e) :
    (table.findSome? fun e => translate a (entryBase e) (entrySize e) (entryPtr e)) =
      some ((entryPtr e).add (a.toNat - (entryBase e).toNat)) := by
  have hle : entryBase e ≤ a := by
    simp only [inRange, Bool.and_eq_true, decide_eq_true_eq] at hit
    exact hit.1
  rw [← BitVec.toNat_sub_of_le hle]
  -- whichever entry the search meets first, it is `e`
  refine findSome?_eq_some_of_agree mem (if_pos hit) fun e' he' z hz => ?_
  unfold translate at hz
  split_ifs at hz with hin
  rw [unique e' he' hin] at hz
  exact (Option.some.inj hz).symm

/-- A table search that no entry answers. -/
theorem findSome?_translate_miss
    (miss : ∀ e ∈ table, ¬ inRange a (entryBase e) (entrySize e) = true) :
    (table.findSome? fun e => translate a (entryBase e) (entrySize e) (entryPtr e)) = none :=
  List.findSome?_eq_none_iff.mpr fun e he => if_neg (miss e he)

end Search

/-! ### The windows of the tiles and modules -/

theorem tileBase_toNat {tile : ℕ} (valid : tile < 8) : (tileBase tile).toNat = 0x100000 * tile := by
  have htable : ∀ tile : Fin 8, (tileBase tile).toNat = 0x100000 * tile := by decide
  exact htable ⟨tile, valid⟩

theorem tileBase_add_toNat {tile : ℕ} {offset : Addr} (valid : tile < 8)
    (inside : offset.toNat ≤ 0x100000) :
    (tileBase tile + offset).toNat = 0x100000 * tile + offset.toNat := by
  -- a tile ends far below `2 ^ 64`, so the sum does not wrap
  rw [BitVec.toNat_add, tileBase_toNat valid, Nat.mod_eq_of_lt (by omega)]

/-- The window of `size` bytes at an offset of tile `tile`. -/
theorem inRange_tile {tile : ℕ} {offset : Addr} (valid : tile < 8)
    (fits : offset.toNat + size.toNat ≤ 0x100000) :
    inRange a (tileBase tile + offset) size = true ↔
      0x100000 * tile + offset.toNat ≤ a.toNat ∧
        a.toNat < 0x100000 * tile + offset.toNat + size.toNat := by
  have hwindow : (tileBase tile + offset).toNat = 0x100000 * tile + offset.toNat :=
    tileBase_add_toNat valid (by omega)
  rw [inRange_iff (by omega), hwindow]

/-- The first address of a module, as the table has it. -/
def dmemBase (id : ℕ) : Addr := dmemBases.getD id 0

theorem dmemBase_toNat {id : ℕ} (valid : id < 8) :
    (dmemBase id).toNat = 0x10000000 * (1 + id / 4) + 0x400000 * (id % 4) := by
  have htable : ∀ id : Fin 8,
      (dmemBase id).toNat = 0x10000000 * (1 + id / 4) + 0x400000 * (id % 4) := by decide
  exact htable ⟨id, valid⟩

theorem inRange_dmem {id : ℕ} (valid : id < 8) :
    inRange a (dmemBase id) dmem512Size = true ↔ (Region.dmem ⟨id, valid⟩).Covers a := by
  have hbase := dmemBase_toNat valid
  have hsize : dmem512Size.toNat = 0x40000 := rfl
  rw [inRange_iff (by omega), hbase, hsize]
  exact Iff.rfl

theorem inRange_c0Master :
    inRange a c0MasterBase c0MasterSize = true ↔ Region.c0Master.Covers a :=
  inRange_iff (by decide)

/-! ### Translation -/

/-- The table entry of a tile. -/
def tileNode (tile : ℕ) : TileCore := { tileEntry tile with dmac512Initialized := true }

theorem mem_nodes {node : TileCore} :
    node ∈ platformAfterSetup.nodes ↔ ∃ tile < 8, tileNode tile = node := by
  have hnodes : platformAfterSetup.nodes = (List.range 8).map tileNode :=
    List.map_congr_left fun i hi => if_pos (List.mem_range.mp hi)
  rw [hnodes, List.mem_map]
  simp only [List.mem_range]

theorem mem_dmems {entry : DmemModule} :
    entry ∈ platformAfterSetup.dmems ↔ ∃ id < 8, dmemEntry id = entry := by
  change entry ∈ (List.range 8).map dmemEntry ↔ _
  rw [List.mem_map]
  simp only [List.mem_range]

section Nodes

variable {offset : Addr} {k n : ℕ} {entryBase : TileCore → Addr}
  {entryPtr : TileCore → Ptr Buffer}

/-- The search for a tile memory at one offset finds the tile whose window it is. -/
theorem findSome?_nodes_hit {tile : ℕ} (valid : tile < 8)
    (bases : ∀ tile, entryBase (tileNode tile) = tileBase tile + offset)
    (offset_eq : offset.toNat = k) (size_eq : size.toNat = n) (fits : k + n ≤ 0x100000)
    (low : 0x100000 * tile + k ≤ a.toNat) (high : a.toNat < 0x100000 * tile + k + n) :
    (platformAfterSetup.nodes.findSome? fun node =>
      translate a (entryBase node) size (entryPtr node)) =
        some ((entryPtr (tileNode tile)).add (a.toNat - (0x100000 * tile + k))) := by
  subst offset_eq size_eq
  have hin := (inRange_tile valid fits).mpr ⟨low, high⟩
  rw [findSome?_translate_hit (mem_nodes.mpr ⟨tile, valid, rfl⟩) (bases tile ▸ hin), bases,
    tileBase_add_toNat valid (by omega)]
  -- windows at one offset of two tiles do not meet
  intro node hnode hother
  obtain ⟨tile', valid', rfl⟩ := mem_nodes.mp hnode
  rw [bases, inRange_tile valid' fits] at hother
  obtain rfl : tile' = tile := by omega
  rfl

/-- It finds nothing outside the windows at that offset. -/
theorem findSome?_nodes_miss
    (bases : ∀ tile, entryBase (tileNode tile) = tileBase tile + offset)
    (offset_eq : offset.toNat = k) (size_eq : size.toNat = n) (fits : k + n ≤ 0x100000)
    (miss : ∀ tile < 8, ¬ (0x100000 * tile + k ≤ a.toNat ∧
      a.toNat < 0x100000 * tile + k + n)) :
    (platformAfterSetup.nodes.findSome? fun node =>
      translate a (entryBase node) size (entryPtr node)) = none := by
  subst offset_eq size_eq
  refine findSome?_translate_miss fun node hnode hin => ?_
  obtain ⟨tile, valid, rfl⟩ := mem_nodes.mp hnode
  rw [bases, inRange_tile valid fits] at hin
  exact miss tile valid hin

theorem findSome?_dlm64_hit {tile : Fin 8} (covers : (Region.dlm64 tile).Covers a) :
    (platformAfterSetup.nodes.findSome? fun node =>
      translate a node.dlm64BaseAddr dlm64Size node.dlm64Ptr) =
        some ((Buffer.dlm64 tile).ptr.add (a.toNat - (0x100000 * tile + 0))) :=
  findSome?_nodes_hit tile.isLt (fun _ => rfl) (rfl : dlm64Offset.toNat = 0)
    (rfl : dlm64Size.toNat = 0x8000) (by decide) covers.1 covers.2

theorem findSome?_dlm64_miss (miss : ∀ tile, ¬ (Region.dlm64 tile).Covers a) :
    (platformAfterSetup.nodes.findSome? fun node =>
      translate a node.dlm64BaseAddr dlm64Size node.dlm64Ptr) = none :=
  findSome?_nodes_miss (fun _ => rfl) (rfl : dlm64Offset.toNat = 0)
    (rfl : dlm64Size.toNat = 0x8000) (by decide) fun tile valid => miss ⟨tile, valid⟩

theorem findSome?_dlm1_512_hit {tile : Fin 8} (covers : (Region.dlm1_512 tile).Covers a) :
    (platformAfterSetup.nodes.findSome? fun node =>
      translate a node.dlm1_512BaseAddr dlm1_512Size node.dlm1_512Ptr) =
        some ((Buffer.dlm1_512 tile).ptr.add (a.toNat - (0x100000 * tile + 0x8000))) :=
  findSome?_nodes_hit tile.isLt (fun _ => rfl) (rfl : dlm1_512Offset.toNat = 0x8000)
    (rfl : dlm1_512Size.toNat = 0x20000) (by decide) covers.1 covers.2

theorem findSome?_dlm1_512_miss (miss : ∀ tile, ¬ (Region.dlm1_512 tile).Covers a) :
    (platformAfterSetup.nodes.findSome? fun node =>
      translate a node.dlm1_512BaseAddr dlm1_512Size node.dlm1_512Ptr) = none :=
  findSome?_nodes_miss (fun _ => rfl) (rfl : dlm1_512Offset.toNat = 0x8000)
    (rfl : dlm1_512Size.toNat = 0x20000) (by decide) fun tile valid => miss ⟨tile, valid⟩

/-- The register windows lie in the tiles' DLM1_512. -/
theorem findSome?_dmaRegs_miss (miss : ∀ tile, ¬ (Region.dlm1_512 tile).Covers a) :
    (platformAfterSetup.nodes.findSome? fun node =>
      translate a node.dmaRegBaseAddr dmaRegSize node.dmaRegsPtr) = none := by
  have hoffset : dmaRegOffset.toNat = 0xF000 := rfl
  have hsize : dmaRegSize.toNat = 0x1000 := rfl
  refine findSome?_nodes_miss (fun _ => rfl) hoffset hsize (by decide) fun tile valid hin => ?_
  -- `0xF000` and the `0x1000` behind it are inside `0x8000 … 0x28000`
  refine miss ⟨tile, valid⟩ (Region.covers_iff.mpr ?_)
  simp only [Region.base, Region.length]
  omega

end Nodes

/-- The search of the module table finds the module whose window it is. -/
theorem findSome?_dmems_hit {id : Fin 8} (covers : (Region.dmem id).Covers a) :
    (platformAfterSetup.dmems.findSome? fun entry =>
      translate a entry.dmemBaseAddr entry.dmemSize entry.dmemPtr) =
        some (regionPlacement.ptrAt (.dmem id) a.toNat) := by
  rw [findSome?_translate_hit (mem_dmems.mpr ⟨id, id.isLt, rfl⟩)
    ((inRange_dmem id.isLt).mpr covers)]
  · change some (Ptr.mk _ _) = some (Ptr.mk _ _)
    rw [show (dmemEntry id).dmemBaseAddr = dmemBase id from rfl, dmemBase_toNat id.isLt]
    rfl
  · intro entry hentry hother
    obtain ⟨id', valid, rfl⟩ := mem_dmems.mp hentry
    obtain rfl := Region.dmem.inj (((inRange_dmem valid).mp hother).unique covers)
    rfl

/-- It finds nothing outside the modules. -/
theorem findSome?_dmems_miss (miss : ∀ id, ¬ (Region.dmem id).Covers a) :
    (platformAfterSetup.dmems.findSome? fun entry =>
      translate a entry.dmemBaseAddr entry.dmemSize entry.dmemPtr) = none := by
  refine findSome?_translate_miss fun entry hentry hin => ?_
  obtain ⟨id, valid, rfl⟩ := mem_dmems.mp hentry
  exact miss ⟨id, valid⟩ ((inRange_dmem valid).mp hin)

/-- No address below the controllers is in one of their windows. -/
theorem plicWindow_of_lt (p : MeshPlatform) (below : a.toNat < 0x90000000) (plic : Fin 3) :
    plicWindow p a plic = none := by
  -- all six bases of the table are at or above `0x90000000`
  have hbases : ∀ plic : Fin 3,
      0x90000000 ≤ (plic0C0c1Base + BitVec.ofNat 64 plic * plicSize).toNat ∧
        0x90000000 ≤ (plic0NxyBase + BitVec.ofNat 64 plic * plicSize).toNat := by decide
  obtain ⟨hc0c1, hnxy⟩ := hbases plic
  have hmiss : ∀ base size : Addr, 0x90000000 ≤ base.toNat → ¬ inRange a base size = true := by
    intro base size hbase hin
    simp only [inRange, Bool.and_eq_true, decide_eq_true_eq, BitVec.le_def] at hin
    omega
  simp only [plicWindow, translate, if_neg (hmiss _ _ hc0c1), if_neg (hmiss _ _ hnxy),
    Option.or_none]

/-- The translation of an address of an instance. -/
theorem addrToPtr_of_covers {r : Region} (covers : r.Covers a) :
    addrToPtr platformAfterSetup a = regionPlacement.ptrAt r a.toNat := by
  -- the searches run in the order DLM_64, DLM1_512, registers, DMEM, PLIC, C0: those
  -- before the one for the kind of `r` miss, as the windows are disjoint
  simp only [addrToPtr]
  cases r with
  | dlm64 tile =>
    rw [findSome?_dlm64_hit covers]
    rfl
  | dlm1_512 tile =>
    rw [findSome?_dlm64_miss fun _ h => (nomatch h.unique covers), findSome?_dlm1_512_hit covers]
    rfl
  | dmem id =>
    rw [findSome?_dlm64_miss fun _ h => (nomatch h.unique covers),
      findSome?_dlm1_512_miss fun _ h => (nomatch h.unique covers),
      findSome?_dmaRegs_miss fun _ h => (nomatch h.unique covers), findSome?_dmems_hit covers]
    rfl
  | c0Master =>
    have hplic : (List.finRange 3).findSome? (plicWindow platformAfterSetup a) = none := by
      have hhigh : a.toNat < 0x80000000 + 0x10000 := covers.2
      exact List.findSome?_eq_none_iff.mpr fun plic _ => plicWindow_of_lt _ (by omega) plic
    have hle : c0MasterBase ≤ a := covers.1
    rw [findSome?_dlm64_miss fun _ h => (nomatch h.unique covers),
      findSome?_dlm1_512_miss fun _ h => (nomatch h.unique covers),
      findSome?_dmaRegs_miss fun _ h => (nomatch h.unique covers),
      findSome?_dmems_miss fun _ h => (nomatch h.unique covers), hplic]
    rw [if_pos (by decide), translate, if_pos (inRange_c0Master.mpr covers),
      BitVec.toNat_sub_of_le hle]
    rfl

/-! ### Classification -/

/-- The tile of an address: the tiles fill the low addresses without a gap. -/
theorem findTile_eq : findTile a =
    if a.toNat < 0x800000 then some (a.toNat / 0x100000) else none := by
  -- the search uses the stride as window size, so neighbouring windows touch
  have hin : ∀ tile < 8, (inRange a (tileBase tile) tileStride = true ↔
      0x100000 * tile ≤ a.toNat ∧ a.toNat < 0x100000 * tile + 0x100000) := by
    intro tile valid
    have hzero : tileBase tile + 0 = tileBase tile := BitVec.add_zero _
    rw [← hzero]
    exact inRange_tile valid (by decide)
  by_cases hlow : a.toNat < 0x800000
  · rw [if_pos hlow]
    refine find?_eq_some_of_unique (List.mem_range.mpr (show _ < 8 by omega))
      ((hin _ (by omega)).mpr (by omega)) fun tile htile h => ?_
    have := (hin tile (List.mem_range.mp htile)).mp h
    omega
  · rw [if_neg hlow]
    refine List.find?_eq_none.mpr fun tile htile h => ?_
    have := (hin tile (List.mem_range.mp htile)).mp h
    have : tile < 8 := List.mem_range.mp htile
    omega

/-- The region of an offset: the register window is never reached, it lies in the
DLM1_512 window. -/
theorem tileRegion_eq (offset : Addr) : tileRegion offset =
    if offset.toNat < 0x8000 then .tileDlm64
    else if offset.toNat < 0x28000 then .tileDlm1_512 else .invalid := by
  have hdlm64 : dlm64Offset ≤ offset ∧ offset < dlm64Offset + dlm64Size ↔
      offset.toNat < 0x8000 := by
    have hlow : dlm64Offset.toNat = 0 := rfl
    have hhigh : (dlm64Offset + dlm64Size).toNat = 0x8000 := rfl
    rw [BitVec.le_def, BitVec.lt_def, hlow, hhigh]
    omega
  have hdlm1_512 : dlm1_512Offset ≤ offset ∧ offset < dlm1_512Offset + dlm1_512Size ↔
      0x8000 ≤ offset.toNat ∧ offset.toNat < 0x28000 := by
    have hlow : dlm1_512Offset.toNat = 0x8000 := rfl
    have hhigh : (dlm1_512Offset + dlm1_512Size).toNat = 0x28000 := rfl
    rw [BitVec.le_def, BitVec.lt_def, hlow, hhigh]
  -- the third test: every offset it accepts has passed the second one
  have hdmaReg : dmaRegOffset ≤ offset ∧ offset < dmaRegOffset + dmaRegSize →
      offset.toNat < 0x28000 := by
    have hhigh : (dmaRegOffset + dmaRegSize).toNat = 0x10000 := rfl
    rw [BitVec.lt_def, hhigh]
    omega
  unfold tileRegion
  simp only [hdlm64, hdlm1_512]
  split_ifs with h₁ h₂ h₃ h₄ <;> first | rfl | omega | exact absurd (hdmaReg ‹_›) (by omega)

/-- The region of an address of a tile. -/
theorem getAddressRegion_of_lt (low : a.toNat < 0x800000) : getAddressRegion a =
    if a.toNat % 0x100000 < 0x8000 then .tileDlm64
    else if a.toNat % 0x100000 < 0x28000 then .tileDlm1_512 else .invalid := by
  have hbase := tileBase_toNat (show a.toNat / 0x100000 < 8 by omega)
  have hle : tileBase (a.toNat / 0x100000) ≤ a := by
    rw [BitVec.le_def, hbase]
    exact Nat.mul_div_le _ _
  have hoffset : (a - tileBase (a.toNat / 0x100000)).toNat = a.toNat % 0x100000 := by
    rw [BitVec.toNat_sub_of_le hle, hbase, Nat.mod_def]
  rw [getAddressRegion, findTile_eq, if_pos low]
  simp only [tileRegion_eq, hoffset]

theorem any_dmemBases :
    (dmemBases.any fun base => inRange a base dmem512Size) = true ↔
      ∃ id, (Region.dmem id).Covers a := by
  have htable : dmemBases = (List.range 8).map dmemBase := by decide
  rw [htable, List.any_map, List.any_eq_true]
  constructor
  · rintro ⟨id, hid, hin⟩
    exact ⟨⟨id, List.mem_range.mp hid⟩, (inRange_dmem (List.mem_range.mp hid)).mp hin⟩
  · rintro ⟨id, covers⟩
    exact ⟨id, List.mem_range.mpr id.isLt, (inRange_dmem id.isLt).mpr covers⟩

/-- The region of an address above the tiles. -/
theorem getAddressRegion_of_ge (high : 0x800000 ≤ a.toNat) : getAddressRegion a =
    if ∃ id, (Region.dmem id).Covers a then .dmem512
    else if Region.c0Master.Covers a then .c0Master else .invalid := by
  rw [getAddressRegion, findTile_eq, if_neg (by omega)]
  exact if_congr any_dmemBases rfl (if_congr inRange_c0Master rfl rfl)

/-- Every address of an instance is classified as the instance's kind. -/
theorem getAddressRegion_of_covers {r : Region} (covers : r.Covers a) :
    getAddressRegion a = r.kind := by
  -- the tiles' instances lie below `0x800000`, the others above
  have hrange := Region.covers_iff.mp covers
  cases r with
  | dlm64 tile =>
    simp only [Region.base, Region.length] at hrange
    rw [getAddressRegion_of_lt (by omega), if_pos (by omega)]
    rfl
  | dlm1_512 tile =>
    simp only [Region.base, Region.length] at hrange
    rw [getAddressRegion_of_lt (by omega), if_neg (by omega), if_pos (by omega)]
    rfl
  | dmem id =>
    simp only [Region.base, Region.length] at hrange
    rw [getAddressRegion_of_ge (by omega), if_pos ⟨id, covers⟩]
    rfl
  | c0Master =>
    simp only [Region.base, Region.length] at hrange
    rw [getAddressRegion_of_ge (by omega), if_neg, if_pos covers]
    · rfl
    · rintro ⟨id, h⟩
      cases h.unique covers

/-- Every address that is classified lies in an instance. -/
theorem exists_covers (valid : getAddressRegion a ≠ .invalid) : ∃ r : Region, r.Covers a := by
  by_cases hlow : a.toNat < 0x800000
  · have htile : a.toNat / 0x100000 < 8 := by omega
    rw [getAddressRegion_of_lt hlow] at valid
    split_ifs at valid with h₁ h₂
    · refine ⟨.dlm64 ⟨_, htile⟩, Region.covers_iff.mpr ?_⟩
      simp only [Region.base, Region.length]
      omega
    · refine ⟨.dlm1_512 ⟨_, htile⟩, Region.covers_iff.mpr ?_⟩
      simp only [Region.base, Region.length]
      omega
    · exact absurd rfl valid
  · rw [getAddressRegion_of_ge (by omega)] at valid
    split_ifs at valid with h₁ h₂
    · obtain ⟨id, h⟩ := h₁
      exact ⟨_, h⟩
    · exact ⟨_, h₂⟩
    · exact absurd rfl valid

/-- An address of the DMEM region lies in a module. -/
theorem exists_dmem_covers (region : getAddressRegion a = .dmem512) :
    ∃ id : Fin 8, (Region.dmem id).Covers a := by
  obtain ⟨r, covers⟩ := exists_covers (a := a) (by simp [region])
  rw [getAddressRegion_of_covers covers] at region
  cases r with
  | dmem id => exact ⟨id, covers⟩
  | _ => simp [Region.kind] at region

/-- The tile id of an address of an instance. -/
theorem getTileIdFromAddress_of_covers {r : Region} (covers : r.Covers a) :
    getTileIdFromAddress a = r.tileId := by
  have hrange := Region.covers_iff.mp covers
  rw [getTileIdFromAddress, findTile_eq]
  cases r <;> simp only [Region.base, Region.length] at hrange
  case dlm64 tile =>
    rw [if_pos (by omega)]
    exact congrArg Nat.cast (show a.toNat / 0x100000 = tile by omega)
  case dlm1_512 tile =>
    rw [if_pos (by omega)]
    exact congrArg Nat.cast (show a.toNat / 0x100000 = tile by omega)
  case dmem id =>
    rw [if_neg (by omega)]
    rfl
  case c0Master =>
    rw [if_neg (by omega)]
    rfl

/-- The module id of an address of an instance. -/
theorem getDmemIdFromAddress_of_covers {r : Region} (covers : r.Covers a) :
    getDmemIdFromAddress a = r.dmemId := by
  have hmiss (other : ∀ id, r ≠ .dmem id) : getDmemIdFromAddress a = -1 := by
    have hnone : ∀ base ∈ dmemBases, inRange a base dmem512Size = false := by
      intro base hbase
      rw [Bool.eq_false_iff]
      intro hin
      obtain ⟨id, h⟩ := any_dmemBases.mp (List.any_eq_true.mpr ⟨base, hbase, hin⟩)
      exact other id (covers.unique h)
    rw [getDmemIdFromAddress, List.findIdx?_eq_none_iff.mpr hnone]
  cases r with
  | dmem id =>
    have hlength : id.val < dmemBases.length := id.isLt
    have hentry (k : ℕ) (h : k < dmemBases.length) : dmemBases[k] = dmemBase k :=
      (List.getElem_eq_getD 0)
    -- `findIdx?` stops at the module itself: no earlier window holds the address
    have hfound : dmemBases.findIdx? (fun base => inRange a base dmem512Size) = some id.val := by
      refine List.findIdx?_eq_some_iff_getElem.mpr ⟨hlength, ?_, fun k hk hin => ?_⟩
      · rw [hentry]
        exact (inRange_dmem id.isLt).mpr covers
      · rw [hentry] at hin
        have h := ((inRange_dmem (hk.trans id.isLt)).mp hin).unique covers
        simp only [Region.dmem.injEq, Fin.ext_iff] at h
        omega
    rw [getDmemIdFromAddress, hfound]
    rfl
  | dlm64 tile => exact hmiss (by simp)
  | dlm1_512 tile => exact hmiss (by simp)
  | c0Master => exact hmiss (by simp)

/-! ### Ranges inside one instance -/

/-- The `size` addresses from `addr` on, at least one, lie in instance `r`. -/
def Region.Contains (r : Region) (addr size : Addr) : Prop :=
  size ≠ 0 ∧ regionPlacement.CoversRange r addr.toNat size.toNat

instance (r : Region) (addr size : Addr) : Decidable (r.Contains addr size) :=
  inferInstanceAs (Decidable (_ ∧ _))

namespace Region.Contains

variable {r : Region} {addr size : Addr}

theorem toNat_add (h : r.Contains addr size) {i : ℕ} (hi : i < size.toNat) :
    (addr + BitVec.ofNat 64 i).toNat = addr.toNat + i := by
  -- an instance ends below `2 ^ 64`, so no address of the range wraps
  have hend := r.base_add_length_lt
  have hhigh : addr.toNat + size.toNat ≤ r.base + r.length := h.2.2
  rw [BitVec.toNat_add, BitVec.toNat_ofNat, Nat.add_mod_mod, Nat.mod_eq_of_lt (by omega)]

theorem covers_add (h : r.Contains addr size) {i : ℕ} (hi : i < size.toNat) :
    r.Covers (addr + BitVec.ofNat 64 i) := by
  rw [Region.Covers, h.toNat_add hi]
  exact h.2.covers hi

theorem covers (h : r.Contains addr size) : r.Covers addr := by
  have hpos : 0 < size.toNat := by
    have := h.1
    bv_omega
  exact h.2.covers hpos

/-- Translation of the first address. -/
theorem addrToPtr_eq (h : r.Contains addr size) :
    addrToPtr platformAfterSetup addr = regionPlacement.ptrAt r addr.toNat :=
  addrToPtr_of_covers h.covers

/-- Translation is affine on the range. -/
theorem addrToPtr_add (h : r.Contains addr size) {i : ℕ} (hi : i < size.toNat) :
    addrToPtr platformAfterSetup (addr + BitVec.ofNat 64 i) =
      (regionPlacement.ptrAt r addr.toNat).add i := by
  rw [addrToPtr_of_covers (h.covers_add hi), h.toNat_add hi, h.2.ptrAt_add]

/-- The range stays inside the allocation of its instance. -/
theorem within (h : r.Contains addr size) :
    (regionPlacement.ptrAt r addr.toNat).Within Buffer.size size.toNat :=
  h.2.within (regionPlacement_fits r)

/-- The longest instance has `0x40000` addresses. -/
theorem size_le (h : r.Contains addr size) : size.toNat ≤ 0x40000 := by
  obtain ⟨hlow, hhigh⟩ := h.2
  have hlength : r.length ≤ 0x40000 := by cases r <;> simp only [Region.length] <;> omega
  change r.base ≤ _ at hlow
  change _ ≤ r.base + r.length at hhigh
  omega

theorem lt (h : r.Contains addr size) : size.toNat < 2 ^ 31 := h.size_le.trans_lt (by decide)

end Region.Contains

end MeshNoc
