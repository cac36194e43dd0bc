import SmartGateway.Lib.FirstMatch
import SmartGateway.Lib.Lists
import SmartGateway.Lib.Machine
import SmartGateway.Server.NodeStore

/-!
# The node store over its runs

The slots of `server/node_store.c` as they stand in memory, the free ones with the used
ones, and the store of their entries, which they are shown to keep. Over any run of
updates the store is a map of bounded size from the ids of the nodes to the latest data
of each: a new id in a full store costs one other, one of those written longest ago.
-/

namespace SmartGateway

/-! ## The slots -/

/-- `node_entry_t`, with its flag. -/
structure NodeSlot extends NodeEntry where
  used : Bool

/-- A slot as `calloc` leaves it. -/
def NodeSlot.zero : NodeSlot := ⟨⟨0, default⟩, false⟩

instance : Inhabited NodeSlot := ⟨NodeSlot.zero⟩

/-- `struct node_store`, slot by slot. -/
structure NodeSlots where
  slots : List NodeSlot
  count : ℕ
  fits : count ≤ slots.length

/-- Data of a node, and what the clock says when it is written. -/
structure NodeUpdate where
  data : FrameData
  now : ℤ
  named : data.nodeId.bytes ≠ []

/-- The node. -/
def NodeUpdate.nodeId (u : NodeUpdate) : CharBuf 32 := u.data.nodeId

/-- What is written for it. -/
def NodeUpdate.entry (u : NodeUpdate) : NodeEntry := ⟨u.now, u.data⟩

namespace NodeSlots

/-- `node_store_create`. -/
def create (maxNodes : ℕ) : Option NodeSlots :=
  if maxNodes = 0 then none
  else some ⟨List.replicate maxNodes NodeSlot.zero, 0, Nat.zero_le _⟩

/-- `node_store_find`, `node_store_find_const`, and the loop of `node_store_query`. -/
def find (store : NodeSlots) (nodeId : CharBuf 32) : Option ℕ :=
  (store.slots.take store.count).findIdx? fun slot => slot.used && slot.data.nodeId == nodeId

/-- The loop for the oldest slot. -/
def oldest (store : NodeSlots) : ℕ :=
  oldestEntry ((store.slots.take store.count).map NodeSlot.toNodeEntry)

/-- `node_store_update` with data of a node. -/
def update (store : NodeSlots) (u : NodeUpdate) : NodeSlots :=
  match store.find u.nodeId with
  | some i =>
    { store with
      slots := store.slots.modify i fun slot => { slot with toNodeEntry := u.entry }
      fits := by rw [List.length_modify]; exact store.fits }
  | none =>
    if h : store.count < store.slots.length then
      { slots := store.slots.set store.count ⟨u.entry, true⟩
        count := store.count + 1
        fits := by rw [List.length_set]; exact h }
    else
      { store with
        slots := store.slots.set store.oldest ⟨u.entry, true⟩
        fits := by rw [List.length_set]; exact store.fits }

/-- `node_store_query`. -/
def query (store : NodeSlots) (nodeId : CharBuf 32) : Option FrameData :=
  if nodeId.bytes = [] then none
  else (store.find nodeId).bind fun i => (store.slots[i]?).map fun slot => slot.data

/-- The slots in use. -/
def occupied (store : NodeSlots) : List NodeSlot := store.slots.filter NodeSlot.used

/-- A store and its updates. -/
def machine (store : NodeSlots) : Machine NodeSlots NodeUpdate Unit where
  init := store
  step store u := (store.update u, ())

end NodeSlots

/-! ## The oldest slot -/

/-- The loop stops at a slot no other is older than, and the first of them. -/
theorem oldestFrom_spec (i oldest : ℕ) (oldestTime : ℤ) (entries : List NodeEntry) :
    (oldestFrom i oldest oldestTime entries = oldest ∧
        ∀ e ∈ entries, oldestTime ≤ e.lastUpdate) ∨
      ∃ k e, oldestFrom i oldest oldestTime entries = i + k ∧ entries[k]? = some e ∧
        e.lastUpdate < oldestTime ∧ (∀ e' ∈ entries, e.lastUpdate ≤ e'.lastUpdate) ∧
        ∀ e' ∈ entries.take k, e.lastUpdate < e'.lastUpdate := by
  induction entries generalizing i oldest oldestTime with
  | nil => exact .inl ⟨rfl, nofun⟩
  | cons entry entries ih =>
    unfold oldestFrom
    split
    -- this slot is older than the oldest so far
    · rename_i holder
      rcases ih (i + 1) i entry.lastUpdate with
        ⟨hstop, hleast⟩ | ⟨k, e, hstop, he, hlt, hleast, hfirst⟩
      · refine .inr ⟨0, entry, hstop, rfl, holder, fun e' he' => ?_, nofun⟩
        rcases List.mem_cons.mp he' with rfl | he'
        · omega
        · exact hleast e' he'
      · refine .inr ⟨k + 1, e, by omega, he, by omega, fun e' he' => ?_, fun e' he' => ?_⟩
        · rcases List.mem_cons.mp he' with rfl | he'
          · exact hlt.le
          · exact hleast e' he'
        · rcases List.mem_cons.mp he' with rfl | he'
          · exact hlt
          · exact hfirst e' he'
    · rename_i hyounger
      rcases ih (i + 1) oldest oldestTime with
        ⟨hstop, hleast⟩ | ⟨k, e, hstop, he, hlt, hleast, hfirst⟩
      · refine .inl ⟨hstop, fun e' he' => ?_⟩
        rcases List.mem_cons.mp he' with rfl | he'
        · omega
        · exact hleast e' he'
      · refine .inr ⟨k + 1, e, by omega, he, hlt, fun e' he' => ?_, fun e' he' => ?_⟩
        · rcases List.mem_cons.mp he' with rfl | he'
          · omega
          · exact hleast e' he'
        · rcases List.mem_cons.mp he' with rfl | he'
          · omega
          · exact hfirst e' he'

/-- **The slot given up**: no other was written before it, and those in front of it were
written after it. -/
theorem oldestEntry_spec {entries : List NodeEntry} (h : 0 < entries.length) :
    ∃ e, entries[oldestEntry entries]? = some e ∧
      (∀ e' ∈ entries, e.lastUpdate ≤ e'.lastUpdate) ∧
      ∀ e' ∈ entries.take (oldestEntry entries), e.lastUpdate < e'.lastUpdate := by
  cases entries with
  | nil => cases h
  | cons entry entries =>
    rw [oldestEntry]
    rcases oldestFrom_spec 1 0 entry.lastUpdate entries with
      ⟨hstop, hleast⟩ | ⟨k, e, hstop, he, hlt, hleast, hfirst⟩
    · rw [hstop]
      refine ⟨entry, rfl, fun e' he' => ?_, nofun⟩
      rcases List.mem_cons.mp he' with rfl | he'
      · exact le_rfl
      · exact hleast e' he'
    · rw [hstop, Nat.add_comm, List.getElem?_cons_succ]
      refine ⟨e, he, fun e' he' => ?_, fun e' he' => ?_⟩
      · rcases List.mem_cons.mp he' with rfl | he'
        · exact hlt.le
        · exact hleast e' he'
      · rcases List.mem_cons.mp he' with rfl | he'
        · exact hlt
        · exact hfirst e' he'

theorem oldestEntry_lt {entries : List NodeEntry} (h : 0 < entries.length) :
    oldestEntry entries < entries.length := by
  obtain ⟨e, he, -⟩ := oldestEntry_spec h
  exact (List.getElem?_eq_some_iff.mp he).1

/-! ## The store of their entries -/

/-- The slots hold these entries: the counted ones are in use, the others free. -/
structure NodeSlots.Holds (slots : NodeSlots) (store : NodeStore) : Prop where
  slots_eq : ∃ free : List NodeSlot, (∀ slot ∈ free, slot.used = false) ∧
    slots.slots = (store.entries.map fun entry => ⟨entry, true⟩) ++ free
  count_eq : slots.count = store.entries.length
  capacity_eq : slots.slots.length = store.capacity

section

variable {slots : NodeSlots} {store : NodeStore}

theorem NodeSlots.create_holds {maxNodes : ℕ} (h : NodeSlots.create maxNodes = some slots) :
    ∃ store, nodeStoreCreate maxNodes = some store ∧ store.capacity = maxNodes ∧
      store.entries = [] ∧ slots.Holds store := by
  unfold NodeSlots.create at h
  split at h
  · cases h
  rename_i hne
  obtain rfl := Option.some.inj h
  refine ⟨⟨maxNodes, [], Nat.pos_of_ne_zero hne, Nat.zero_le _⟩, dif_neg hne, rfl, rfl, ?_⟩
  refine ⟨⟨List.replicate maxNodes NodeSlot.zero, fun slot hslot => ?_, rfl⟩, rfl,
    List.length_replicate⟩
  rw [List.eq_of_mem_replicate hslot]
  rfl

theorem NodeSlots.Holds.take_eq (h : slots.Holds store) :
    slots.slots.take slots.count = store.entries.map fun entry => ⟨entry, true⟩ := by
  obtain ⟨free, -, hslots⟩ := h.slots_eq
  have hlength : slots.count =
      (store.entries.map fun entry => (⟨entry, true⟩ : NodeSlot)).length := by
    rw [List.length_map, h.count_eq]
  rw [hslots, hlength, List.take_left]

/-- The loop finds the same entry. -/
theorem NodeSlots.Holds.find_eq (h : slots.Holds store) (nodeId : CharBuf 32) :
    slots.find nodeId = (nodeStoreFind store nodeId).map Fin.val := by
  have hsame : ((fun slot : NodeSlot => slot.used && slot.data.nodeId == nodeId) ∘
      fun entry : NodeEntry => (⟨entry, true⟩ : NodeSlot)) =
        fun entry => entry.data.nodeId == nodeId := by
    funext entry
    exact Bool.true_and _
  rw [NodeSlots.find, h.take_eq, List.findIdx?_map, hsame, nodeStoreFind,
    List.findIdx?_eq_map_findFinIdx?_val]

/-- A counted slot written. -/
theorem NodeSlots.Holds.slots_set (h : slots.Holds store) {i : ℕ} (hi : i < store.entries.length)
    (entry : NodeEntry) :
    ∃ free : List NodeSlot, (∀ slot ∈ free, slot.used = false) ∧
      slots.slots.set i ⟨entry, true⟩ =
        ((store.entries.set i entry).map fun entry => ⟨entry, true⟩) ++ free := by
  obtain ⟨free, hfree, hslots⟩ := h.slots_eq
  refine ⟨free, hfree, ?_⟩
  rw [hslots, List.set_append_left _ _ (by rw [List.length_map]; exact hi), List.map_set]

/-- **An update of the slots** is one of the store. -/
theorem NodeSlots.Holds.update (h : slots.Holds store) (u : NodeUpdate) :
    ∃ next, nodeStoreUpdate store u.data u.now = some next ∧ (slots.update u).Holds next := by
  obtain ⟨free, hfree, hslots⟩ := h.slots_eq
  have hcount := h.count_eq
  have hcapacity := h.capacity_eq
  have hfind := h.find_eq u.nodeId
  unfold nodeStoreUpdate NodeSlots.update
  rw [if_neg u.named]
  cases hlookup : nodeStoreFind store u.data.nodeId with
  | some i =>
    -- the slot is written under its flag
    have hslot : slots.find u.nodeId = some i.val := by
      rw [hfind, NodeUpdate.nodeId, hlookup]
      rfl
    have hmodify : (slots.slots.modify i.val fun slot => { slot with toNodeEntry := u.entry }) =
        slots.slots.set i.val ⟨u.entry, true⟩ := by
      have hlt : i.val < (store.entries.map
          fun entry => (⟨entry, true⟩ : NodeSlot)).length := by
        rw [List.length_map]
        exact i.isLt
      have hat : slots.slots[i.val]? = some ⟨store.entries[i.val], true⟩ := by
        rw [hslots, List.getElem?_append_left hlt, List.getElem?_map,
          List.getElem?_eq_getElem i.isLt]
        rfl
      rw [List.modify_eq_set, hat]
      rfl
    rw [hslot]
    refine ⟨_, rfl, ?_, ?_, ?_⟩
    · dsimp only
      rw [hmodify]
      exact h.slots_set i.isLt u.entry
    · exact hcount.trans (List.length_set ..).symm
    · exact (List.length_modify ..).trans hcapacity
  | none =>
    have hslot : slots.find u.nodeId = none := by
      rw [hfind, NodeUpdate.nodeId, hlookup]
      rfl
    rw [hslot]
    dsimp only
    by_cases hroom : store.entries.length < store.capacity
    · have hroom' : slots.count < slots.slots.length := by omega
      rw [dif_pos hroom, dif_pos hroom']
      refine ⟨_, rfl, ?_, ?_, ?_⟩
      · -- the first free slot is taken
        cases free with
        | nil =>
          rw [List.append_nil] at hslots
          rw [hslots, List.length_map] at hroom'
          omega
        | cons slot free =>
          refine ⟨free, fun slot hslot => hfree slot (List.mem_cons_of_mem _ hslot), ?_⟩
          dsimp only
          have hlength : slots.count = (store.entries.map
              fun entry => (⟨entry, true⟩ : NodeSlot)).length := by
            rw [List.length_map, hcount]
          rw [hslots, hlength, List.set_append_right _ _ le_rfl, Nat.sub_self,
            List.set_cons_zero, List.map_append, List.append_assoc]
          rfl
      · dsimp only
        rw [hcount, List.length_append, List.length_singleton]
      · exact (List.length_set ..).trans hcapacity
    · have hroom' : ¬ slots.count < slots.slots.length := by omega
      rw [dif_neg hroom, dif_neg hroom']
      have hentries : (slots.slots.take slots.count).map NodeSlot.toNodeEntry =
          store.entries := by
        rw [h.take_eq, List.map_map]
        exact List.map_id _
      have holdest : slots.oldest = oldestEntry store.entries := by
        rw [NodeSlots.oldest, hentries]
      have hpos := store.pos
      have hlt : oldestEntry store.entries < store.entries.length :=
        oldestEntry_lt (by omega)
      refine ⟨_, rfl, ?_, ?_, ?_⟩
      · dsimp only
        rw [holdest]
        exact h.slots_set hlt u.entry
      · exact hcount.trans (List.length_set ..).symm
      · exact (List.length_set ..).trans hcapacity

/-- **A query of the slots** is one of the store. -/
theorem NodeSlots.Holds.query_eq (h : slots.Holds store) (nodeId : CharBuf 32) :
    slots.query nodeId = nodeStoreQuery store nodeId := by
  obtain ⟨free, -, hslots⟩ := h.slots_eq
  unfold NodeSlots.query nodeStoreQuery
  split
  · rfl
  rw [h.find_eq]
  cases nodeStoreFind store nodeId with
  | none => rfl
  | some i =>
    have hlt : i.val < (store.entries.map fun entry => (⟨entry, true⟩ : NodeSlot)).length := by
      rw [List.length_map]
      exact i.isLt
    rw [Option.map_some, Option.bind_some, hslots, List.getElem?_append_left hlt,
      List.getElem?_map, List.getElem?_eq_getElem i.isLt]
    rfl

theorem NodeSlots.Holds.occupied_eq (h : slots.Holds store) :
    slots.occupied = store.entries.map fun entry => ⟨entry, true⟩ := by
  obtain ⟨free, hfree, hslots⟩ := h.slots_eq
  have hused : ∀ slot ∈ store.entries.map fun entry => (⟨entry, true⟩ : NodeSlot),
      slot.used = true := by
    intro slot hslot
    obtain ⟨entry, -, rfl⟩ := List.mem_map.mp hslot
    rfl
  have hnone : free.filter NodeSlot.used = [] := by
    rw [List.filter_eq_nil_iff]
    intro slot hslot
    rw [hfree slot hslot]
    exact Bool.false_ne_true
  rw [NodeSlots.occupied, hslots, List.filter_append, hnone, List.append_nil,
    List.filter_eq_self.mpr hused]

end

/-! ## One update -/

/-- The ids in the store. -/
def NodeStore.ids (store : NodeStore) : List (CharBuf 32) :=
  store.entries.map fun entry => entry.data.nodeId

/-- What an update does to the entries. -/
inductive UpdateEffect (store : NodeStore) (u : NodeUpdate) : List NodeEntry → Prop
  /-- The entry of the node is written again. -/
  | overwritten (before after : List NodeEntry) (old : NodeEntry) :
      store.entries = before ++ old :: after → old.data.nodeId = u.nodeId →
      UpdateEffect store u (before ++ u.entry :: after)
  /-- A new node gets a slot. -/
  | appended : u.nodeId ∉ store.ids → store.entries.length < store.capacity →
      UpdateEffect store u (store.entries ++ [u.entry])
  /-- Where there is none left, it gets the slot of one written longest ago. -/
  | evicted (before after : List NodeEntry) (victim : NodeEntry) : u.nodeId ∉ store.ids →
      store.entries.length = store.capacity → store.entries = before ++ victim :: after →
      (∀ entry ∈ store.entries, victim.lastUpdate ≤ entry.lastUpdate) →
      UpdateEffect store u (before ++ u.entry :: after)

section

variable {store next : NodeStore} {u : NodeUpdate}

theorem nodeStoreUpdate_effect (h : nodeStoreUpdate store u.data u.now = some next) :
    next.capacity = store.capacity ∧ UpdateEffect store u next.entries := by
  unfold nodeStoreUpdate at h
  rw [if_neg u.named] at h
  split at h
  -- the node has a slot
  · rename_i i hfind
    obtain rfl := Option.some.inj h
    have hnode := FirstMatch.getElem_of_find hfind
    obtain ⟨before, after, hentries, hset⟩ :=
      Lists.exists_split_of_getElem? (List.getElem?_eq_getElem i.isLt)
    refine ⟨rfl, ?_⟩
    dsimp only
    rw [hset]
    exact .overwritten before after _ hentries (beq_iff_eq.mp hnode)
  rename_i hfind
  have hnew : u.nodeId ∉ store.ids := by
    intro hmem
    obtain ⟨entry, hentry, hnode⟩ := List.mem_map.mp hmem
    have hnone := List.findFinIdx?_eq_none_iff.mp hfind entry hentry
    exact hnone (beq_iff_eq.mpr hnode)
  split at h
  · rename_i hroom
    obtain rfl := Option.some.inj h
    exact ⟨rfl, .appended hnew hroom⟩
  · rename_i hfull
    obtain rfl := Option.some.inj h
    have hpos := store.pos
    have hfits := store.fits
    obtain ⟨victim, hvictim, hleast, -⟩ :=
      oldestEntry_spec (show 0 < store.entries.length by omega)
    obtain ⟨before, after, hentries, hset⟩ := Lists.exists_split_of_getElem? hvictim
    refine ⟨rfl, ?_⟩
    dsimp only
    rw [hset]
    exact .evicted before after victim hnew (by omega) hentries hleast

/-- What a query finds, where no id occurs twice. -/
theorem nodeStoreQuery_eq_some_iff (h : store.ids.Nodup) {nodeId : CharBuf 32}
    {data : FrameData} :
    nodeStoreQuery store nodeId = some data ↔
      nodeId.bytes ≠ [] ∧ data.nodeId = nodeId ∧ ∃ entry ∈ store.entries, entry.data = data := by
  unfold nodeStoreQuery
  split
  · rename_i hempty
    exact ⟨nofun, fun hnamed => absurd hempty hnamed.1⟩
  rename_i hnamed
  rw [Option.map_eq_some_iff]
  constructor
  · rintro ⟨i, hfind, rfl⟩
    have hnode := FirstMatch.getElem_of_find hfind
    exact ⟨hnamed, beq_iff_eq.mp hnode, _, List.getElem_mem i.isLt, rfl⟩
  · rintro ⟨-, rfl, entry, hentry, rfl⟩
    cases hfind : nodeStoreFind store entry.data.nodeId with
    | none =>
      have hnone := List.findFinIdx?_eq_none_iff.mp hfind entry hentry
      exact absurd (beq_self_eq_true entry.data.nodeId) hnone
    | some i =>
      -- the entry found is the one with its id
      have hnode : (store.entries.get i).data.nodeId = entry.data.nodeId :=
        beq_iff_eq.mp (FirstMatch.getElem_of_find hfind)
      have hsame : store.entries.get i = entry :=
        List.inj_on_of_nodup_map h (List.get_mem _ _) hentry hnode
      exact ⟨i, rfl, congrArg NodeEntry.data hsame⟩

end

/-! ## A bounded map -/

/-- The last data written for a node. -/
def latest (updates : List NodeUpdate) (nodeId : CharBuf 32) : Option FrameData :=
  (updates.reverse.find? fun u => u.nodeId == nodeId).map NodeUpdate.data

theorem latest_concat_self (updates : List NodeUpdate) (u : NodeUpdate) :
    latest (updates ++ [u]) u.nodeId = some u.data := by
  rw [latest, List.reverse_append, List.reverse_singleton, List.singleton_append, List.find?_cons,
    beq_self_eq_true, Option.map_some]

theorem latest_concat_other (updates : List NodeUpdate) {u : NodeUpdate} {nodeId : CharBuf 32}
    (h : u.nodeId ≠ nodeId) : latest (updates ++ [u]) nodeId = latest updates nodeId := by
  rw [latest, List.reverse_append, List.reverse_singleton, List.singleton_append,
    List.find?_cons_of_neg (by simpa using h), latest]

/-- The ids updated. -/
def updatedIds (updates : List NodeUpdate) : Finset (CharBuf 32) :=
  (updates.map NodeUpdate.nodeId).toFinset

theorem updatedIds_concat (updates : List NodeUpdate) (u : NodeUpdate) :
    updatedIds (updates ++ [u]) = insert u.nodeId (updatedIds updates) := by
  ext nodeId
  simp [updatedIds]

/-- **The invariant**: what the store is after these updates. -/
structure NodeStore.Keeps (store : NodeStore) (updates : List NodeUpdate) : Prop where
  nodup : store.ids.Nodup
  latest : ∀ entry ∈ store.entries, latest updates entry.data.nodeId = some entry.data
  updated : ∀ nodeId ∈ store.ids, nodeId ∈ updatedIds updates
  length : store.entries.length = min store.capacity (updatedIds updates).card

section

variable {store next : NodeStore} {updates : List NodeUpdate} {u : NodeUpdate}

theorem NodeStore.keeps_nil (h : store.entries = []) : store.Keeps [] := by
  have hids : store.ids = [] := by rw [NodeStore.ids, h, List.map_nil]
  refine ⟨?_, ?_, ?_, ?_⟩
  · rw [hids]
    exact List.nodup_nil
  · rw [h]
    exact nofun
  · rw [hids]
    exact nofun
  · rw [h]
    exact (Nat.min_zero _).symm

/-- The entries after an update: the one written, and others of other nodes. -/
theorem UpdateEffect.mem_cases {entries : List NodeEntry} (hnodup : store.ids.Nodup)
    (h : UpdateEffect store u entries) {entry : NodeEntry} (he : entry ∈ entries) :
    entry = u.entry ∨ entry ∈ store.entries ∧ entry.data.nodeId ≠ u.nodeId := by
  have hother : u.nodeId ∉ store.ids → entry ∈ store.entries →
      entry.data.nodeId ≠ u.nodeId := by
    intro hnew hmem hnode
    exact hnew (List.mem_map.mpr ⟨entry, hmem, hnode⟩)
  cases h with
  | overwritten before after old hsplit hnode =>
    rw [NodeStore.ids, hsplit, List.map_append, List.map_cons, List.nodup_middle,
      List.nodup_cons, ← List.map_append, hnode] at hnodup
    rw [List.mem_append, List.mem_cons, or_left_comm, ← List.mem_append] at he
    refine he.imp_right fun hmem => ⟨?_, fun hsame => hnodup.1 ?_⟩
    · rw [hsplit, List.mem_append, List.mem_cons, or_left_comm, ← List.mem_append]
      exact .inr hmem
    · exact List.mem_map.mpr ⟨entry, hmem, hsame⟩
  | appended hnew _ =>
    rcases List.mem_append.mp he with hmem | hmem
    · exact .inr ⟨hmem, hother hnew hmem⟩
    · exact .inl (List.mem_singleton.mp hmem)
  | evicted before after victim hnew _ hsplit _ =>
    rw [List.mem_append, List.mem_cons, or_left_comm, ← List.mem_append] at he
    refine he.imp_right fun hmem => ?_
    have hstored : entry ∈ store.entries := by
      rw [hsplit, List.mem_append, List.mem_cons, or_left_comm, ← List.mem_append]
      exact .inr hmem
    exact ⟨hstored, hother hnew hstored⟩

/-- No id comes twice. -/
theorem UpdateEffect.nodup {entries : List NodeEntry} (hnodup : store.ids.Nodup)
    (h : UpdateEffect store u entries) :
    (entries.map fun entry => entry.data.nodeId).Nodup := by
  cases h with
  | overwritten before after old hsplit hnode =>
    rw [NodeStore.ids, hsplit, List.map_append, List.map_cons, hnode] at hnodup
    rw [List.map_append, List.map_cons]
    exact hnodup
  | appended hnew _ =>
    rw [List.map_append, List.nodup_append]
    refine ⟨hnodup, List.nodup_singleton _, fun nodeId hmem other hother he => hnew ?_⟩
    rw [← show other = u.nodeId from List.mem_singleton.mp hother, ← he]
    exact hmem
  | evicted before after victim hnew _ hsplit _ =>
    have hids : store.ids = before.map (fun entry => entry.data.nodeId) ++
        victim.data.nodeId :: after.map fun entry => entry.data.nodeId := by
      rw [NodeStore.ids, hsplit, List.map_append, List.map_cons]
    rw [hids, List.nodup_middle, List.nodup_cons] at hnodup
    rw [List.map_append, List.map_cons, List.nodup_middle, List.nodup_cons]
    refine ⟨fun hmem => hnew ?_, hnodup.2⟩
    rw [hids, List.mem_append, List.mem_cons, or_left_comm, ← List.mem_append]
    exact .inr hmem

/-- A store that is not full has all ids there have been. -/
theorem NodeStore.Keeps.mem_ids (h : store.Keeps updates)
    (hroom : store.entries.length < store.capacity) {nodeId : CharBuf 32}
    (hnode : nodeId ∈ updatedIds updates) : nodeId ∈ store.ids := by
  have hlength := h.length
  have hsubset : store.ids.toFinset ⊆ updatedIds updates := by
    intro nodeId hmem
    exact h.updated nodeId (List.mem_toFinset.mp hmem)
  have hcard : store.ids.toFinset.card = store.entries.length := by
    rw [List.toFinset_card_of_nodup h.nodup, NodeStore.ids, List.length_map]
  have hall : store.ids.toFinset = updatedIds updates :=
    Finset.eq_of_subset_of_card_le hsubset (by omega)
  rw [← List.mem_toFinset, hall]
  exact hnode

/-- **One update** keeps it. -/
theorem NodeStore.Keeps.update (h : store.Keeps updates)
    (hcapacity : next.capacity = store.capacity)
    (heffect : UpdateEffect store u next.entries) : next.Keeps (updates ++ [u]) := by
  have hlength := h.length
  have hfits := store.fits
  have hcount : ∀ {before after : List NodeEntry} {old : NodeEntry},
      store.entries = before ++ old :: after →
        (before ++ u.entry :: after).length = store.entries.length := by
    intro before after old hsplit
    rw [hsplit, List.length_append, List.length_append]
    rfl
  refine ⟨heffect.nodup h.nodup, ?_, ?_, ?_⟩
  · intro entry hentry
    rcases heffect.mem_cases h.nodup hentry with rfl | ⟨hmem, hother⟩
    · exact latest_concat_self updates u
    · rw [latest_concat_other updates hother.symm]
      exact h.latest entry hmem
  · intro nodeId hmem
    obtain ⟨entry, hentry, rfl⟩ := List.mem_map.mp hmem
    rw [updatedIds_concat, Finset.mem_insert]
    rcases heffect.mem_cases h.nodup hentry with rfl | ⟨hmem, -⟩
    · exact .inl rfl
    · exact .inr (h.updated _ (List.mem_map_of_mem hmem))
  -- an id already there, one more id, or one more in a full store
  · rw [hcapacity, updatedIds_concat]
    generalize hentries : next.entries = entries at heffect
    cases heffect with
    | overwritten before after old hsplit hnode =>
      have hmem : u.nodeId ∈ updatedIds updates := by
        refine h.updated _ ?_
        rw [NodeStore.ids, hsplit, ← hnode]
        exact List.mem_map_of_mem (List.mem_append_right _ List.mem_cons_self)
      rw [Finset.insert_eq_self.mpr hmem, hcount hsplit, hlength]
    | appended hnew hroom =>
      have hfresh : u.nodeId ∉ updatedIds updates := fun hmem => hnew (h.mem_ids hroom hmem)
      rw [Finset.card_insert_of_notMem hfresh, List.length_append, List.length_singleton]
      omega
    | evicted before after victim hnew hfull hsplit _ =>
      have hle : (updatedIds updates).card ≤ (insert u.nodeId (updatedIds updates)).card :=
        Finset.card_le_card (Finset.subset_insert _ _)
      rw [hcount hsplit]
      omega

end

/-! ## The slots as a map -/

section

variable {store next : NodeStore} {slots : NodeSlots} {u : NodeUpdate}

/-- What is written is there. -/
theorem UpdateEffect.self_mem {entries : List NodeEntry} (h : UpdateEffect store u entries) :
    u.entry ∈ entries := by
  cases h with
  | overwritten before after => exact List.mem_append_right _ List.mem_cons_self
  | appended => exact List.mem_append_right _ (List.mem_singleton_self _)
  | evicted before after => exact List.mem_append_right _ List.mem_cons_self

/-- What is not touched by an update is found as before. -/
theorem nodeStoreQuery_congr (h : store.ids.Nodup) (hnext : next.ids.Nodup) {nodeId : CharBuf 32}
    (hsame : ∀ data : FrameData, data.nodeId = nodeId →
      ((∃ entry ∈ next.entries, entry.data = data) ↔ ∃ entry ∈ store.entries, entry.data = data)) :
    nodeStoreQuery next nodeId = nodeStoreQuery store nodeId := by
  ext data
  rw [nodeStoreQuery_eq_some_iff h, nodeStoreQuery_eq_some_iff hnext]
  constructor
  · rintro ⟨hnamed, hnode, hentry⟩
    exact ⟨hnamed, hnode, (hsame data hnode).mp hentry⟩
  · rintro ⟨hnamed, hnode, hentry⟩
    exact ⟨hnamed, hnode, (hsame data hnode).mpr hentry⟩

/-- Of an entry replaced by another, only the two ids notice. -/
theorem nodeStoreQuery_replaced (h : store.ids.Nodup) (hnext : next.ids.Nodup)
    {before after : List NodeEntry} {old : NodeEntry}
    (hold : store.entries = before ++ old :: after)
    (hnew : next.entries = before ++ u.entry :: after) {nodeId : CharBuf 32}
    (hu : nodeId ≠ u.nodeId) (hne : nodeId ≠ old.data.nodeId) :
    nodeStoreQuery next nodeId = nodeStoreQuery store nodeId := by
  refine nodeStoreQuery_congr h hnext fun data hnode => ?_
  have hdata : u.entry.data ≠ data := fun he => hu (by rw [← hnode, ← he]; rfl)
  have hdata' : old.data ≠ data := fun he => hne (by rw [← hnode, ← he])
  rw [hold, hnew]
  simp [or_and_right, exists_or, hdata, hdata']

/-- What an update of a node leaves of the other nodes: all of them, but for one where the
store is full and the node new. -/
theorem UpdateEffect.others (h : store.ids.Nodup) (hnext : next.ids.Nodup)
    (heffect : UpdateEffect store u next.entries) :
    (nodeStoreQuery store u.nodeId ≠ none ∨ store.entries.length < store.capacity →
        ∀ nodeId, nodeId ≠ u.nodeId →
          nodeStoreQuery next nodeId = nodeStoreQuery store nodeId) ∧
      (nodeStoreQuery store u.nodeId = none → store.entries.length = store.capacity →
        ∃ victim ∈ store.entries,
          (∀ entry ∈ store.entries, victim.lastUpdate ≤ entry.lastUpdate) ∧
          nodeStoreQuery next victim.data.nodeId = none ∧
          ∀ nodeId, nodeId ≠ u.nodeId → nodeId ≠ victim.data.nodeId →
            nodeStoreQuery next nodeId = nodeStoreQuery store nodeId) := by
  have hstored : u.nodeId ∈ store.ids → nodeStoreQuery store u.nodeId ≠ none := by
    intro hmem hnone
    obtain ⟨entry, hentry, hnode⟩ := List.mem_map.mp hmem
    have hsome := (nodeStoreQuery_eq_some_iff h).mpr ⟨u.named, hnode, entry, hentry, rfl⟩
    rw [show u.data.nodeId = u.nodeId from rfl, hnone] at hsome
    cases hsome
  have hnotStored : u.nodeId ∉ store.ids → nodeStoreQuery store u.nodeId = none := by
    intro hnew
    cases hquery : nodeStoreQuery store u.nodeId with
    | none => rfl
    | some data =>
      obtain ⟨-, hnode, entry, hentry, rfl⟩ := (nodeStoreQuery_eq_some_iff h).mp hquery
      exact absurd (List.mem_map.mpr ⟨entry, hentry, hnode⟩) hnew
  generalize hentries : next.entries = entries at heffect
  cases heffect with
  | overwritten before after old hsplit hnode =>
    refine ⟨fun _ nodeId hne => ?_, fun hnone => ?_⟩
    · exact nodeStoreQuery_replaced h hnext hsplit hentries hne (by rw [hnode]; exact hne)
    · refine absurd hnone (hstored ?_)
      rw [NodeStore.ids, hsplit, ← hnode]
      exact List.mem_map_of_mem (List.mem_append_right _ List.mem_cons_self)
  | appended hnew hroom =>
    refine ⟨fun _ nodeId hne => ?_, fun _ hfull => absurd hfull (Nat.ne_of_lt hroom)⟩
    refine nodeStoreQuery_congr h hnext fun data hnode => ?_
    have hdata : u.entry.data ≠ data := fun he => hne (by rw [← hnode, ← he]; rfl)
    rw [hentries]
    simp [or_and_right, exists_or, hdata]
  | evicted before after victim hnew hfull hsplit hleast =>
    have hvictim : victim ∈ store.entries := by
      rw [hsplit]
      exact List.mem_append_right _ List.mem_cons_self
    refine ⟨fun hcase => ?_, fun _ _ => ⟨victim, hvictim, hleast, ?_, fun nodeId hne hne' => ?_⟩⟩
    · rcases hcase with hsome | hroom
      · exact absurd (hnotStored hnew) hsome
      · omega
    · cases hquery : nodeStoreQuery next victim.data.nodeId with
      | none => rfl
      | some data =>
        -- no entry that stays has the victim's id
        obtain ⟨-, hnode, entry, hentry, rfl⟩ := (nodeStoreQuery_eq_some_iff hnext).mp hquery
        have hnodup := h
        rw [NodeStore.ids, hsplit, List.map_append, List.map_cons, List.nodup_middle,
          List.nodup_cons, ← List.map_append] at hnodup
        rw [hentries] at hentry
        refine absurd ?_ hnodup.1
        rcases List.mem_append.mp hentry with hmem | hmem
        · exact List.mem_map.mpr ⟨entry, List.mem_append_left _ hmem, hnode⟩
        · rcases List.mem_cons.mp hmem with rfl | hmem
          · refine absurd (List.mem_map.mpr ⟨victim, hvictim, ?_⟩) hnew
            exact hnode.symm
          · exact List.mem_map.mpr ⟨entry, List.mem_append_right _ hmem, hnode⟩
    · exact nodeStoreQuery_replaced h hnext hsplit hentries hne hne'

end

/-- **The run rule of the slots**: they hold a store of which everything is true that is true
of the empty one and kept by an update. -/
theorem NodeSlots.holds_state {I : NodeStore → List NodeUpdate → Prop}
    (hempty : ∀ store : NodeStore, store.entries = [] → I store [])
    (hupdate : ∀ (store next : NodeStore) updates u, next.capacity = store.capacity →
      UpdateEffect store u next.entries → I store updates → I next (updates ++ [u]))
    {maxNodes : ℕ} {slots : NodeSlots} (hcreate : NodeSlots.create maxNodes = some slots)
    (updates : List NodeUpdate) :
    ∃ store : NodeStore, (slots.machine.state updates).Holds store ∧
      store.capacity = maxNodes ∧ I store updates := by
  refine slots.machine.run_induction (P := fun updates s => ∃ store : NodeStore,
    s.Holds store ∧ store.capacity = maxNodes ∧ I store updates) ?_ ?_ updates
  · obtain ⟨store, -, hcapacity, hnone, hholds⟩ := NodeSlots.create_holds hcreate
    exact ⟨store, hholds, hcapacity, hempty store hnone⟩
  · rintro updates s u ⟨store, hholds, hcapacity, hkeeps⟩
    obtain ⟨next, hnext, hholds'⟩ := hholds.update u
    obtain ⟨hsame, heffect⟩ := nodeStoreUpdate_effect hnext
    exact ⟨next, hholds', hsame.trans hcapacity, hupdate store next updates u hsame heffect hkeeps⟩

/-- **The node store is a bounded map of latest values.** After any updates of a store of
`maxNodes` slots, under any clock: the slots in use have different ids, and as many are in
use as there have been ids, up to the capacity; what a query gives is the last data of the
id. An update makes a query of its id give its data. One of a stored id, or where a slot is
free, leaves all others as they were; one of a new id in a full store takes the slot of one
other, one that was written longest ago, and leaves the rest. -/
theorem nodeStore_latest {maxNodes : ℕ} {slots : NodeSlots}
    (hcreate : NodeSlots.create maxNodes = some slots) (updates : List NodeUpdate) :
    let s := slots.machine.state updates
    (s.occupied.map fun slot => slot.data.nodeId).Nodup ∧
    s.occupied.length = min maxNodes (updatedIds updates).card ∧
    (∀ nodeId data, s.query nodeId = some data → latest updates nodeId = some data) ∧
    ∀ u : NodeUpdate,
      (s.update u).query u.nodeId = some u.data ∧
      (s.query u.nodeId ≠ none ∨ s.occupied.length < maxNodes →
        ∀ nodeId, nodeId ≠ u.nodeId → (s.update u).query nodeId = s.query nodeId) ∧
      (s.query u.nodeId = none → s.occupied.length = maxNodes →
        ∃ victim ∈ s.occupied, (∀ slot ∈ s.occupied, victim.lastUpdate ≤ slot.lastUpdate) ∧
          (s.update u).query victim.data.nodeId = none ∧
          ∀ nodeId, nodeId ≠ u.nodeId → nodeId ≠ victim.data.nodeId →
            (s.update u).query nodeId = s.query nodeId) := by
  intro s
  obtain ⟨store, hholds, hcapacity, hkeeps⟩ :
      ∃ store : NodeStore, s.Holds store ∧ store.capacity = maxNodes ∧ store.Keeps updates :=
    NodeSlots.holds_state (fun _ hnone => NodeStore.keeps_nil hnone)
      (fun _ _ _ _ hsame heffect hkeeps => hkeeps.update hsame heffect) hcreate updates
  have hlength : s.occupied.length = store.entries.length := by
    rw [hholds.occupied_eq, List.length_map]
  refine ⟨?_, ?_, fun nodeId data hquery => ?_, fun u => ?_⟩
  · rw [hholds.occupied_eq, List.map_map]
    exact hkeeps.nodup
  · rw [hlength, hkeeps.length, hcapacity]
  · rw [hholds.query_eq] at hquery
    obtain ⟨-, rfl, entry, hentry, rfl⟩ := (nodeStoreQuery_eq_some_iff hkeeps.nodup).mp hquery
    exact hkeeps.latest entry hentry
  · obtain ⟨next, hnext, hholds'⟩ := hholds.update u
    obtain ⟨hsame, heffect⟩ := nodeStoreUpdate_effect hnext
    have hkeeps' := hkeeps.update hsame heffect
    obtain ⟨hothers, hevicted⟩ := heffect.others hkeeps.nodup hkeeps'.nodup
    have hself : u.entry ∈ next.entries := heffect.self_mem
    simp only [hholds'.query_eq, hholds.query_eq, hlength, ← hcapacity]
    refine ⟨?_, hothers, fun hnone hfull => ?_⟩
    · exact (nodeStoreQuery_eq_some_iff hkeeps'.nodup).mpr
        ⟨u.named, rfl, u.entry, hself, rfl⟩
    · obtain ⟨victim, hvictim, hleast, hgone, hrest⟩ := hevicted hnone hfull
      rw [hholds.occupied_eq]
      refine ⟨⟨victim, true⟩, List.mem_map_of_mem hvictim, fun slot hslot => ?_, hgone, hrest⟩
      obtain ⟨entry, hentry, rfl⟩ := List.mem_map.mp hslot
      exact hleast entry hentry

/-- Two nodes, the first of them again, and a third. -/
def evictionRun : List NodeUpdate :=
  [⟨⟨.lit 32 "NODE01", 1, default⟩, 0, by decide +kernel⟩,
    ⟨⟨.lit 32 "NODE02", 2, default⟩, 0, by decide +kernel⟩,
    ⟨⟨.lit 32 "NODE01", 3, default⟩, 1, by decide +kernel⟩,
    ⟨⟨.lit 32 "NODE03", 4, default⟩, 2, by decide +kernel⟩]

/-- Two slots hold two of the three. -/
theorem nodeStore_latest_evictionRun :
    ∃ slots, NodeSlots.create 2 = some slots ∧
      (slots.machine.state evictionRun).occupied.length = 2 := by
  refine ⟨_, rfl, ?_⟩
  have hlength := (nodeStore_latest (rfl : NodeSlots.create 2 = some _) evictionRun).2.1
  have hids : (updatedIds evictionRun).card = 3 := by decide +kernel
  rw [hids] at hlength
  exact hlength

end SmartGateway
