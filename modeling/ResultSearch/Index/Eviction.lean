import ResultSearch.Index.Basic

/-!
# Eviction

The oldest runs make room: a part of the resident runs, but at least one, or exactly one. The names
of their tests stay registered.

* `evictionCount`: how many runs a part of them is; `evictionCount_pos`: it is one at least.
* `evict`, `evictAny`: the oldest part of the runs goes, or the oldest run.
-/

namespace ResultSearch.Index

/-- The fraction itself, or the nearest one to what is none; what is no number counts as nothing. -/
def clampFraction (fraction : Float) : Float :=
  if fraction.isNaN then 0 else if fraction < 0 then 0 else if 1 < fraction then 1 else fraction

/-- How many runs a fraction of `resident` of them is, but at least one. The product is no less than
zero, and its digits after the point are cut off. -/
def evictionCount (resident : Nat) (fraction : Float) : Nat :=
  max 1 (resident.toUInt64.toFloat * clampFraction fraction).toUInt64.toNat

/-- Remove the results of runs from all shards, up to the first shard that does not have one. -/
def purge (ids : List RunId) : List Shard → Except Error Unit × List Shard
  | [] => (.ok (), [])
  | s :: rest =>
    match s.purge ids with
    | (.error e, s) => (.error e, s :: rest)
    | (.ok (), s) =>
      let (outcome, rest) := purge ids rest
      (outcome, s :: rest)

/-- Evict a number of the oldest runs, which are named from the oldest on. -/
def evictOldest (ix : Index) (count : Nat) : Except Error (List RunId) × Index :=
  let victims := ((Run.oldestFirst ix.resident.values).take count).map Run.id
  match purge victims ix.shards with
  | (.error e, shards) => (.error e, { ix with shards })
  | (.ok (), shards) =>
    (.ok victims, { ix with shards, resident := victims.foldl Table.erase ix.resident })

/-- Evict a part of the runs; nothing happens to an empty index. -/
def evict (ix : Index) (fraction : Float) : Except Error (List RunId) × Index :=
  if ix.isEmpty then (.ok [], ix) else ix.evictOldest (evictionCount ix.size fraction)

/-- Evict the oldest run. -/
def evictAny (ix : Index) : Except Error (List RunId) × Index :=
  if ix.isEmpty then (.error .noRuns, ix) else ix.evictOldest 1

theorem evictionCount_pos (resident : Nat) (fraction : Float) :
    1 ≤ evictionCount resident fraction :=
  Nat.le_max_left ..

end ResultSearch.Index
