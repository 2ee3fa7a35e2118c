import MeshNoc.C0Master.SuiteFinishes

/-!
# The tiles of the rows

Which tile executes which test does not depend on the schedule: the parallel test has the
first two turns of the round robin, and the rows of the table have the turns after them. When
the run has finished, tiles 3 and 4 have executed three tests of the table, and the others two.

## Main results

* `HalRun.ProgressInv.executed_perm` — what was executed is what was assigned
* `suite_rows` — the tile of each row
-/

namespace MeshNoc

open Lib
open TaskSystem

/-- The tile that executes the test of row `i`. -/
def rowTile (i : ℕ) : ℕ := 1 + (i + 2) % 7

/-- The `i`-th turn of the round in the batch. -/
theorem iterate_roundStart (i : ℕ) :
    (nextInRound 1 numTiles)^[i] ((nextInRound 1 numTiles)^[2] 1) = rowTile i := by
  have hnodes : numTiles = 8 := rfl
  rw [← Function.iterate_add_apply, iterate_nextInRound le_rfl (by decide), hnodes, rowTile,
    Nat.sub_self, Nat.zero_add]

namespace HalRun.ProgressInv

variable {tests : HalTable} {r : HalRun}

/-- The tiles execute only tasks that were assigned to them, each once. -/
theorem executed_subperm (inv : ProgressInv tests r) :
    (r.sys.history.executed.map fun e => (e.task, e.tile)).Subperm r.sys.history.chosen := by
  refine List.subperm_of_subset (List.Nodup.of_map Prod.fst ?_) fun p hp => ?_
  · rw [List.map_map]
    exact inv.execution.executed_once
  · obtain ⟨e, he, rfl⟩ := List.mem_map.mp hp
    exact inv.dispatch.handout.given_chosen _
      (List.mem_map_of_mem (f := fun h : HandOut => (h.task, h.tile))
        (inv.execution.executed_given e he))

/-- When C0 has finished, the tiles have executed the tasks that were assigned to them. -/
theorem executed_perm (inv : ProgressInv tests r) (finished : r.phase = .finished) :
    (r.sys.history.executed.map fun e => (e.task, e.tile)).Perm r.sys.history.chosen := by
  have hrows : r.sys.Rows tests.length := by
    have h := inv.rows
    rwa [finished] at h
  have hdone := (inv.batchIsolated.waited finished).2
  refine inv.executed_subperm.perm_of_length_le ?_
  -- no task of the table is missing
  have htasks : r.sys.history.created.map Creation.task ⊆
      r.sys.history.executed.map Execution.task := by
    intro id hid
    obtain ⟨c, hc, rfl⟩ := List.mem_map.mp hid
    exact List.one_le_count_iff.mp (hdone c hc).1.ge
  have hlength := (List.subperm_of_subset inv.dispatch.created_once htasks).length_le
  rw [← hrows.chosen] at hlength
  simpa only [List.length_map] using hlength

/-- The tiles in the order in which they were chosen. -/
theorem chosen_tiles (inv : ProgressInv tests r) (nodes : r.sys.nodeCount = numTiles)
    (finished : r.phase = .finished) :
    r.sys.history.chosen.map Prod.snd = ((List.range tests.length).map rowTile).reverse := by
  have hrows : r.sys.Rows tests.length := by
    have h := inv.rows
    rwa [finished] at h
  have hlength : (r.sys.history.chosen.map Prod.snd).length = tests.length := by
    have h := congrArg List.length hrows.chosen
    rw [List.length_map, List.length_map, hrows.created] at h
    rw [List.length_map, h]
  have hround := inv.round.chosen.chosen
  rw [finished, nodes, hlength] at hround
  rw [hround]
  exact congrArg List.reverse (List.map_congr_left fun i _ => iterate_roundStart i)

/-- The task of row `i` was assigned to the tile of the row. -/
theorem exists_assigned (inv : ProgressInv tests r) (nodes : r.sys.nodeCount = numTiles)
    (finished : r.phase = .finished) {i : ℕ} (row : i < tests.length) :
    ∃ c ∈ r.sys.history.created, c.test = halTest i tests[i] ∧
      (c.task, rowTile i) ∈ r.sys.history.chosen := by
  have hrows : r.sys.Rows tests.length := by
    have h := inv.rows
    rwa [finished] at h
  have hcreated := (inv.batchIsolated.waited finished).1
  have hlength : i < r.sys.history.created.reverse.length := by
    rw [List.length_reverse, hrows.created]
    exact row
  have hchosen : i < r.sys.history.chosen.reverse.length := by
    have h := congrArg List.length hrows.chosen
    rw [List.length_map, List.length_map, hrows.created] at h
    rw [List.length_reverse, h]
    exact row
  refine ⟨r.sys.history.created.reverse[i], List.mem_reverse.mp (List.getElem_mem _), ?_, ?_⟩
  · have htest : (r.sys.history.created.reverse.map Creation.test)[i]? =
        some (halTest i tests[i]) := by
      rw [List.map_reverse, hcreated]
      exact batchTests_getElem? (List.getElem?_eq_getElem row)
    rw [List.getElem?_map, List.getElem?_eq_getElem hlength] at htest
    exact Option.some.inj htest
  · have hpair : r.sys.history.chosen.reverse[i] =
        (r.sys.history.created.reverse[i].task, rowTile i) := by
      refine Prod.ext ?_ ?_
      · have h : (r.sys.history.chosen.reverse.map Prod.fst)[i]? =
            (r.sys.history.created.reverse.map Creation.task)[i]? := by
          rw [List.map_reverse, List.map_reverse, hrows.chosen]
        rw [List.getElem?_map, List.getElem?_map, List.getElem?_eq_getElem hlength,
          List.getElem?_eq_getElem hchosen] at h
        exact Option.some.inj h
      · have h : (r.sys.history.chosen.reverse.map Prod.snd)[i]? = some (rowTile i) := by
          rw [List.map_reverse, inv.chosen_tiles nodes finished, List.reverse_reverse,
            List.getElem?_map, List.getElem?_range row]
          rfl
        rw [List.getElem?_map, List.getElem?_eq_getElem hchosen] at h
        exact Option.some.inj h
    rw [← hpair]
    exact List.mem_reverse.mp (List.getElem_mem hchosen)

end HalRun.ProgressInv

namespace SuiteRun

variable {r : SuiteRun} {u : Uninitialised} {st : HalSystem}

/-- The tests of the table were executed, each once and by the tile of its row. -/
structure RowsExecuted (r : SuiteRun) : Prop where
  created_once : (r.run.sys.history.created.map Creation.task).Nodup
  executed_once : (r.run.sys.history.executed.map Execution.task).Nodup
  total : r.run.sys.history.executed.length = halTests.length
  rows : ∀ i (h : i < halTests.length), ∃ c ∈ r.run.sys.history.created,
    c.test = halTest i halTests[i] ∧ ∃ e ∈ r.run.sys.history.executed,
      e.task = c.task ∧ e.tile = rowTile i ∧ e.value = 1
  shares : ∀ tile, r.run.sys.history.executed.countP (fun e => e.tile = tile) =
    ((List.range halTests.length).map rowTile).count tile

theorem ProgressInv.rowsExecuted (inv : ProgressInv r) (finished : r.run.phase = .finished) :
    r.RowsExecuted := by
  have hperm := inv.progress.executed_perm finished
  have htiles := inv.progress.chosen_tiles inv.values.nodeCount finished
  refine ⟨inv.run.dispatch.created_once, inv.run.execution.executed_once, ?_, fun i hi => ?_,
    fun tile => ?_⟩
  · have hlength := congrArg List.length htiles
    have hsame := hperm.length_eq
    simp only [List.length_map, List.length_reverse, List.length_range] at hlength hsame
    rw [hsame, hlength]
  · obtain ⟨c, hc, htest, hassigned⟩ :=
      inv.progress.exists_assigned inv.values.nodeCount finished hi
    obtain ⟨e, he, hpair⟩ := List.mem_map.mp (hperm.mem_iff.mpr hassigned)
    obtain ⟨htask, htile⟩ := Prod.mk.inj hpair
    refine ⟨c, hc, htest, e, he, htask, htile, ?_⟩
    -- the value was returned by the function of the row
    obtain ⟨c', hc', htask', hvalue⟩ := inv.values.executed e he
    obtain rfl := List.inj_on_of_nodup_map inv.run.dispatch.created_once hc' hc
      (htask'.trans htask)
    rw [hvalue halTests[i].1 (by rw [htest]; rfl)]
    exact (halTests_expected _ (List.getElem_mem hi)).2
  · have hcount := (hperm.map Prod.snd).count_eq tile
    rw [htiles, List.count_reverse, List.map_map] at hcount
    rw [← hcount, List.count, List.countP_map]
    rfl

/-- When C0 has finished, the test of row `i` of the table has been executed once, by tile
`1 + (i + 2) % 7`, and has passed: in every run in which `malloc` succeeds and whose resets are
quiet, whatever the schedule. -/
theorem suite_rows (ready : HalReady st) (u : Uninitialised) {actors : List SuiteActor}
    (allocates : ∀ actor ∈ actors, actor.uninitialised.Allocates)
    (quiet : (SuiteRun.start st u).ResetsQuiet actors)
    (finished : ((SuiteRun.start st u).runFrom actors).run.phase = .finished) :
    ((SuiteRun.start st u).runFrom actors).RowsExecuted :=
  ((ProgressInv.start ready u).run_from allocates quiet).rowsExecuted finished

/-- From the platform as set up. -/
theorem suite_rows_afterSetup : ∃ st actors, HalReady st ∧
    ((SuiteRun.start st .zeroed).runFrom actors).run.phase = .finished ∧
      ((SuiteRun.start st .zeroed).runFrom actors).RowsExecuted := by
  have ready := halReady_afterSetup platformSetup_eq
  obtain ⟨actors, hallocates, hquiet, hfinished⟩ := exists_finished ready .zeroed
  exact ⟨_, actors, ready, hfinished, suite_rows ready .zeroed hallocates hquiet hfinished⟩

/-- Tiles 3 and 4 have three tests of the table, the others two. -/
example : [1, 2, 3, 4, 5, 6, 7].map ((List.range halTests.length).map rowTile).count =
    [2, 2, 3, 3, 2, 2, 2] := by decide

end SuiteRun

end MeshNoc
