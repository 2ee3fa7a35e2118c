import MeshNoc.HalTests.Transfers

/-!
# Mesh distance

Three places compute the coordinates of a tile. `platform_setup` puts the tiles on rows 0
and 2 of the mesh, while the route query of the HAL and the headers of its packets use the
rows 0 and 1. The distance of two tiles comes out right only in one row.

## Main results

* `refMeshRouteOptimal_eq` — what the route query returns for two tiles
* `headerAssigned_iff` — when the headers carry the coordinates of a tile
* `meshDistance_iff` — the addresses at which all three places agree
-/

namespace MeshNoc

open Lib

/-- `calc_xy_route`. -/
def calcXyRoute (srcX srcY dstX dstY : BitVec 8) : ℤ :=
  ((dstX.toNat : ℤ) - srcX.toNat).natAbs + ((dstY.toNat : ℤ) - srcY.toNat).natAbs

/-- The hops `noc_send_packet` computes from a header. -/
def PktHeader.hops (hdr : PktHeader) : ℤ := calcXyRoute hdr.srcX hdr.srcY hdr.destX hdr.destY

/-- `ref_mesh_route_optimal`. -/
def refMeshRouteOptimal (srcAddr dstAddr : Addr) (st : HalState) :
    Option (HalAnswer × HalState) := do
  let st ← st.lock
  let srcTile := getTileIdFromAddress srcAddr
  let dstTile := getTileIdFromAddress dstAddr
  if srcTile < 0 ∨ dstTile < 0 then some ({ result := -1 }, st.unlock)
  else
    let (srcX, srcY) := (srcTile % 4, srcTile / 4)
    let (dstX, dstY) := (dstTile % 4, dstTile / 4)
    some ({ result := (dstX - srcX).natAbs + (dstY - srcY).natAbs }, st.unlock)

/-! ### The coordinates of the platform -/

/-- The coordinates of a tile in the platform's table. -/
def coordinates (p : MeshPlatform) (tile : ℕ) : ℕ × ℕ :=
  ((p.nodes.getD tile {}).x, (p.nodes.getD tile {}).y)

/-- The Manhattan distance of two tiles by these coordinates. -/
def distance (p : MeshPlatform) (i j : ℕ) : ℤ :=
  (((coordinates p i).1 : ℤ) - (coordinates p j).1).natAbs +
    (((coordinates p i).2 : ℤ) - (coordinates p j).2).natAbs

/-- The address lies in the address space of the tile. -/
def OwnsAddr (tile : ℕ) (a : Addr) : Prop :=
  tile < numTiles ∧ inRange a (tileBase tile) tileStride = true

instance (tile : ℕ) (a : Addr) : Decidable (OwnsAddr tile a) :=
  inferInstanceAs (Decidable (_ ∧ _))

/-- The remote transfers for which a packet is built. -/
structure RemoteSent (srcAddr dstAddr size : Addr) : Prop where
  src_valid : validateAddress srcAddr size = true
  dst_valid : validateAddress dstAddr size = true
  regions : RemoteRegions srcAddr dstAddr

/-- Every header built for a remote transfer from or to `x` carries the coordinates of the
tile. -/
structure HeaderAssigned (p : MeshPlatform) (x : Addr) (tile : ℕ) : Prop where
  src : ∀ dst size, RemoteSent x dst size →
    ((remotePacket x dst size).srcX.toNat, (remotePacket x dst size).srcY.toNat) =
      coordinates p tile
  dst : ∀ src size, RemoteSent src x size →
    ((remotePacket src x size).destX.toNat, (remotePacket src x size).destY.toNat) =
      coordinates p tile

/-- The route query, the headers and the hops agree with the distance of the tiles that own
the two addresses. The hops are those between the source coordinates of the first tile's
packets and the destination coordinates of the second's. -/
structure MeshDistance (st : HalState) (a b : Addr) (i j : ℕ) : Prop where
  route : (refMeshRouteOptimal a b st).map (fun call => call.1.result) =
    some (distance st.platform i j)
  src_header : HeaderAssigned st.platform a i
  dst_header : HeaderAssigned st.platform b j
  hops : ∀ size, (remotePacket a b size).hops = distance st.platform i j

section Tiles

variable {a b : Addr} {i j : ℕ}

/-- The owner is the tile that the address search finds. -/
theorem OwnsAddr.getTileIdFromAddress_eq (owns : OwnsAddr i a) : getTileIdFromAddress a = i := by
  obtain ⟨valid, hin⟩ := owns
  have hcount : numTiles = 8 := rfl
  rw [← BitVec.add_zero (tileBase i)] at hin
  have hrange := (inRange_tile (by omega) (by decide)).mp hin
  have hstride : tileStride.toNat = 0x100000 := rfl
  have hzero : (0#64).toNat = 0 := rfl
  rw [getTileIdFromAddress, findTile_eq, if_pos (by omega)]
  exact congrArg Nat.cast (show a.toNat / 0x100000 = i by omega)

theorem coordinates_eq (valid : i < numTiles) :
    coordinates platformAfterSetup i = (i % 4, i / 4 * 2) := by
  have htable : ∀ tile : Fin 8,
      coordinates platformAfterSetup tile = (tile.val % 4, tile.val / 4 * 2) := by decide
  exact htable ⟨i, valid⟩

/-- The two coordinates of a header. -/
theorem header_eq (valid : i < numTiles) :
    (BitVec.ofInt 8 ((i : ℤ) % 4)).toNat = i % 4 ∧
      (BitVec.ofInt 8 ((i : ℤ) / 4)).toNat = i / 4 := by
  have htable : ∀ tile : Fin 8, (BitVec.ofInt 8 ((tile.val : ℤ) % 4)).toNat = tile.val % 4 ∧
      (BitVec.ofInt 8 ((tile.val : ℤ) / 4)).toNat = tile.val / 4 := by decide
  exact htable ⟨i, valid⟩

/-- The distance with neighbouring rows next to each other. -/
def rowDistance (i j : ℕ) : ℤ :=
  (((j % 4 : ℕ) : ℤ) - (i % 4 : ℕ)).natAbs + (((j / 4 : ℕ) : ℤ) - (i / 4 : ℕ)).natAbs

/-- The rows of the platform are two apart, so the two distances agree in one row only. -/
theorem rowDistance_eq_iff (hi : i < numTiles) (hj : j < numTiles) :
    rowDistance i j = distance platformAfterSetup i j ↔ i / 4 = j / 4 := by
  rw [rowDistance, distance, coordinates_eq hi, coordinates_eq hj]
  omega

/-- The route query of two tiles. -/
theorem refMeshRouteOptimal_eq (ha : OwnsAddr i a) (hb : OwnsAddr j b) {st : HalState}
    (unlocked : st.halMutex.held = false) :
    refMeshRouteOptimal a b st = some ({ result := rowDistance i j }, st.unlock) := by
  have hfound : ¬ ((i : ℤ) < 0 ∨ (j : ℤ) < 0) := by omega
  simp only [refMeshRouteOptimal, HalState.lock_of_unlocked unlocked, Option.bind_eq_bind,
    Option.bind_some, ha.getTileIdFromAddress_eq, hb.getTileIdFromAddress_eq, if_neg hfound]
  rfl

/-- The hops of a packet between two tiles. -/
theorem hops_remotePacket (ha : OwnsAddr i a) (hb : OwnsAddr j b) (size : Addr) :
    (remotePacket a b size).hops = rowDistance i j := by
  obtain ⟨hix, hiy⟩ := header_eq ha.1
  obtain ⟨hjx, hjy⟩ := header_eq hb.1
  simp only [PktHeader.hops, calcXyRoute, remotePacket, ha.getTileIdFromAddress_eq,
    hb.getTileIdFromAddress_eq, Int.natCast_nonneg, if_true, hix, hiy, hjx, hjy]
  rfl

/-! ### Headers -/

/-- A tile owns no address of a DMEM module. -/
theorem OwnsAddr.not_dmem (owns : OwnsAddr i a) : getAddressRegion a ≠ .dmem512 := by
  intro region
  obtain ⟨id, covers⟩ := exists_dmem_covers region
  have htile : (i : ℤ) = -1 :=
    owns.getTileIdFromAddress_eq.symm.trans (getTileIdFromAddress_of_covers covers)
  omega

/-- The address of a tile and the first byte of DMEM0, or the other way round, are the ends
of a remote transfer if the address is in the tile's DLM1_512. -/
theorem remoteSent_dmem0 (region : getAddressRegion a = .tileDlm1_512) :
    RemoteSent a 0x10000000 1 := by
  have hdmem : getAddressRegion 0x10000000 = .dmem512 := by decide +kernel
  refine ⟨validateAddress_eq_true.mpr ⟨by decide, by simp [region], ?_⟩, by decide +kernel,
    .inl ⟨region, hdmem⟩⟩
  rw [show a + 1 - 1 = a by bv_omega]

/-- The headers carry the coordinates of a tile exactly when the tile is in the first row, or
no remote transfer can start or end at the address. -/
theorem headerAssigned_iff (owns : OwnsAddr i a) : HeaderAssigned platformAfterSetup a i ↔
    (getAddressRegion a = .tileDlm1_512 → i < 4) := by
  have hcount : numTiles = 8 := rfl
  have hvalid := owns.1
  obtain ⟨hx, hy⟩ := header_eq owns.1
  constructor
  · intro assigned region
    have hheader := assigned.src _ _ (remoteSent_dmem0 region)
    simp only [remotePacket, owns.getTileIdFromAddress_eq, Int.natCast_nonneg, if_true, hx, hy,
      coordinates_eq owns.1, Prod.mk.injEq, true_and] at hheader
    omega
  · intro first
    refine ⟨fun dst size sent => ?_, fun src size sent => ?_⟩
    · have hrow := first (sent.regions.elim And.left fun h => absurd h.1 owns.not_dmem)
      simp only [remotePacket, owns.getTileIdFromAddress_eq, Int.natCast_nonneg, if_true, hx, hy,
        coordinates_eq owns.1, Prod.mk.injEq, true_and]
      omega
    · have hrow := first (sent.regions.elim (fun h => absurd h.2 owns.not_dmem) And.right)
      simp only [remotePacket, owns.getTileIdFromAddress_eq, Int.natCast_nonneg, if_true, hx, hy,
        coordinates_eq owns.1, Prod.mk.injEq, true_and]
      omega

/-- The three places agree at two addresses exactly when their tiles are in one row, and this
is the first row if a remote transfer can start or end at one of them. -/
theorem meshDistance_iff {setupState : PlatformState} (setup : platformSetup = some setupState)
    {st : HalState} (platform : st.platform = setupState.platform)
    (unlocked : st.halMutex.held = false) (ha : OwnsAddr i a) (hb : OwnsAddr j b) :
    MeshDistance st a b i j ↔ i / 4 = j / 4 ∧
      (getAddressRegion a = .tileDlm1_512 → i < 4) ∧
        (getAddressRegion b = .tileDlm1_512 → j < 4) := by
  obtain rfl := Option.some.inj (platformSetup_eq.symm.trans setup)
  have hroute := refMeshRouteOptimal_eq ha hb unlocked
  have hrows := rowDistance_eq_iff ha.1 hb.1
  constructor
  · intro right
    have hdistance := right.route
    rw [hroute, platform] at hdistance
    have hsrc := right.src_header
    have hdst := right.dst_header
    rw [platform] at hsrc hdst
    exact ⟨hrows.mp (Option.some.inj hdistance), (headerAssigned_iff ha).mp hsrc,
      (headerAssigned_iff hb).mp hdst⟩
  · rintro ⟨row, hsrc, hdst⟩
    refine ⟨?_, ?_, ?_, fun size => ?_⟩ <;> rw [platform]
    · rw [hroute]
      exact congrArg some (hrows.mpr row)
    · exact (headerAssigned_iff ha).mpr hsrc
    · exact (headerAssigned_iff hb).mpr hdst
    · rw [hops_remotePacket ha hb]
      exact hrows.mpr row

end Tiles

/-- Tile 0 and its neighbour. -/
theorem meshDistance_iff_neighbours : ∃ st, platformSetup = some st ∧
    (MeshDistance (HalState.afterSetup st) 0x8000 0x108000 0 1 ↔
      0 / 4 = 1 / 4 ∧ (getAddressRegion 0x8000 = .tileDlm1_512 → 0 < 4) ∧
        (getAddressRegion 0x108000 = .tileDlm1_512 → 1 < 4)) :=
  ⟨_, platformSetup_eq, meshDistance_iff platformSetup_eq rfl rfl (by decide) (by decide)⟩

/-- Tile 0 and tile 4, two rows below it: the route query answers with 1. -/
theorem not_meshDistance_rows : ∃ st, platformSetup = some st ∧ OwnsAddr 0 0x0 ∧
    OwnsAddr 4 0x400000 ∧ ¬ MeshDistance (HalState.afterSetup st) 0x0 0x400000 0 4 := by
  refine ⟨_, platformSetup_eq, by decide, by decide, fun right => ?_⟩
  have hroute := right.route
  rw [refMeshRouteOptimal_eq (i := 0) (j := 4) (by decide) (by decide) rfl] at hroute
  revert hroute
  decide +kernel

end MeshNoc
