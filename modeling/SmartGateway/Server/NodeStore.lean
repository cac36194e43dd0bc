import SmartGateway.Common.Frame

/-!
# The node store

`server/node_store.c`: the latest data of each node, in an array that is filled
from the front. Every counted slot is in use, so the counted part of the array is
the list of its entries. A full store gives up the slot that was written longest ago.
-/

namespace SmartGateway

/-- `node_entry_t`. -/
structure NodeEntry where
  lastUpdate : ℤ
  data : FrameData
deriving DecidableEq

/-- `struct node_store`: the counted entries, in an array of `capacity` slots. -/
structure NodeStore where
  capacity : ℕ
  entries : List NodeEntry
  pos : 0 < capacity
  fits : entries.length ≤ capacity

/-- `node_store_create`. -/
def nodeStoreCreate (maxNodes : ℕ) : Option NodeStore :=
  if h : maxNodes = 0 then none
  else some ⟨maxNodes, [], Nat.pos_of_ne_zero h, Nat.zero_le _⟩

/-- `node_store_find`. -/
def nodeStoreFind (store : NodeStore) (nodeId : CharBuf 32) : Option (Fin store.entries.length) :=
  store.entries.findFinIdx? fun entry => entry.data.nodeId == nodeId

/-- The loop for the oldest slot: the first of those with the smallest time. -/
def oldestFrom (i oldest : ℕ) (oldestTime : ℤ) : List NodeEntry → ℕ
  | [] => oldest
  | entry :: entries =>
    if entry.lastUpdate < oldestTime then oldestFrom (i + 1) i entry.lastUpdate entries
    else oldestFrom (i + 1) oldest oldestTime entries

/-- The slot a full store gives up. -/
def oldestEntry : List NodeEntry → ℕ
  | [] => 0
  | entry :: entries => oldestFrom 1 0 entry.lastUpdate entries

/-- `node_store_update` at the time `now`; `none` for -1. -/
def nodeStoreUpdate (store : NodeStore) (data : FrameData) (now : ℤ) : Option NodeStore :=
  if data.nodeId.bytes = [] then
    none
  else
    match nodeStoreFind store data.nodeId with
    | some i =>
      some { store with
        entries := store.entries.set i ⟨now, data⟩
        fits := by rw [List.length_set]; exact store.fits }
    | none =>
      if h : store.entries.length < store.capacity then
        some { store with
          entries := store.entries ++ [⟨now, data⟩]
          fits := by rw [List.length_append]; exact h }
      else
        some { store with
          entries := store.entries.set (oldestEntry store.entries) ⟨now, data⟩
          fits := by rw [List.length_set]; exact store.fits }

/-- `node_store_query`. -/
def nodeStoreQuery (store : NodeStore) (nodeId : CharBuf 32) : Option FrameData :=
  if nodeId.bytes = [] then none
  else (nodeStoreFind store nodeId).map fun i => store.entries[i].data

end SmartGateway
