import SmartGateway.Server.NodeStoreRuns

/-!
# Which node is given up

`server/node_store.c` calls its policy least recently used. What an entry keeps of its last
update is the second it came in, so the order of the calls is known as far as the seconds
tell it; among the nodes last updated in one second the slots decide.
-/

namespace SmartGateway

/-- The place of the last update of a node in a run, counted from one. -/
def lastCall (updates : List NodeUpdate) (nodeId : CharBuf 32) : ℕ :=
  updates.length - updates.reverse.findIdx fun u => u.nodeId == nodeId

/-- The second it came in. -/
def lastTime (updates : List NodeUpdate) (nodeId : CharBuf 32) : Option ℤ :=
  (updates.reverse.find? fun u => u.nodeId == nodeId).map NodeUpdate.now

/-! ## Calls and seconds -/

section

variable {updates : List NodeUpdate} {u : NodeUpdate} {nodeId : CharBuf 32}

theorem lastCall_concat_self : lastCall (updates ++ [u]) u.nodeId = updates.length + 1 := by
  rw [lastCall, List.reverse_append, List.reverse_singleton, List.singleton_append,
    List.findIdx_cons, beq_self_eq_true, List.length_append]
  rfl

theorem lastCall_concat_other (h : u.nodeId ≠ nodeId) :
    lastCall (updates ++ [u]) nodeId = lastCall updates nodeId := by
  rw [lastCall, lastCall, List.reverse_append, List.reverse_singleton, List.singleton_append,
    List.findIdx_cons, beq_eq_false_iff_ne.mpr h, List.length_append, List.length_singleton]
  exact Nat.add_sub_add_right ..

theorem lastTime_concat_self : lastTime (updates ++ [u]) u.nodeId = some u.now := by
  rw [lastTime, List.reverse_append, List.reverse_singleton, List.singleton_append,
    List.find?_cons, beq_self_eq_true, Option.map_some]

theorem lastTime_concat_other (h : u.nodeId ≠ nodeId) :
    lastTime (updates ++ [u]) nodeId = lastTime updates nodeId := by
  rw [lastTime, List.reverse_append, List.reverse_singleton, List.singleton_append,
    List.find?_cons_of_neg (by simpa using h), lastTime]

/-- The second is that of the call. -/
theorem getElem?_of_lastTime {time : ℤ} (h : lastTime updates nodeId = some time) :
    ∃ n u, lastCall updates nodeId = n + 1 ∧ updates[n]? = some u ∧ u.now = time := by
  induction updates using List.reverseRecOn with
  | nil => cases h
  | append_singleton updates u ih =>
    by_cases hnode : u.nodeId = nodeId
    · subst hnode
      rw [lastTime_concat_self] at h
      exact ⟨updates.length, u, lastCall_concat_self, List.getElem?_concat_length,
        Option.some.inj h⟩
    · rw [lastTime_concat_other hnode] at h
      obtain ⟨n, last, hcall, hlast, hnow⟩ := ih h
      refine ⟨n, last, (lastCall_concat_other hnode).trans hcall, ?_, hnow⟩
      rw [List.getElem?_append_left (List.getElem?_eq_some_iff.mp hlast).1]
      exact hlast

/-- **A later second is a later call**, while the clock does not go back. -/
theorem lastCall_lt_of_lastTime_lt (hclock : updates.Pairwise fun u u' => u.now ≤ u'.now)
    {other : CharBuf 32} {time time' : ℤ} (h : lastTime updates nodeId = some time)
    (h' : lastTime updates other = some time') (hlt : time < time') :
    lastCall updates nodeId < lastCall updates other := by
  obtain ⟨n, u, hcall, hat, rfl⟩ := getElem?_of_lastTime h
  obtain ⟨n', u', hcall', hat', rfl⟩ := getElem?_of_lastTime h'
  obtain ⟨hn, rfl⟩ := List.getElem?_eq_some_iff.mp hat
  obtain ⟨hn', rfl⟩ := List.getElem?_eq_some_iff.mp hat'
  rcases Nat.lt_trichotomy n n' with hbefore | rfl | hafter
  · omega
  · exact absurd hlt (lt_irrefl _)
  · have hle := List.pairwise_iff_getElem.mp hclock n' n hn' hn hafter
    omega

end

/-! ## The seconds of the entries -/

/-- Each entry bears the second of the last update of its node. -/
def NodeStore.Stamped (store : NodeStore) (updates : List NodeUpdate) : Prop :=
  ∀ entry ∈ store.entries, lastTime updates entry.data.nodeId = some entry.lastUpdate

section

variable {store next : NodeStore} {u : NodeUpdate} {updates : List NodeUpdate}

/-- **One update** stamps its entry and leaves the others. -/
theorem NodeStore.Stamped.update (h : store.Stamped updates) (hnodup : store.ids.Nodup)
    (heffect : UpdateEffect store u next.entries) : next.Stamped (updates ++ [u]) := by
  intro entry hentry
  rcases heffect.mem_cases hnodup hentry with rfl | ⟨hmem, hother⟩
  · exact lastTime_concat_self
  · rw [lastTime_concat_other hother.symm]
    exact h entry hmem

/-- Every run. -/
theorem NodeSlots.stamped_state {maxNodes : ℕ} {slots : NodeSlots}
    (hcreate : NodeSlots.create maxNodes = some slots) (updates : List NodeUpdate) :
    ∃ store : NodeStore, (slots.machine.state updates).Holds store ∧
      store.capacity = maxNodes ∧ store.Keeps updates ∧ store.Stamped updates := by
  refine NodeSlots.holds_state
    (I := fun store updates => store.Keeps updates ∧ store.Stamped updates) ?_ ?_ hcreate updates
  · intro store hnone
    refine ⟨NodeStore.keeps_nil hnone, fun entry hentry => ?_⟩
    rw [hnone] at hentry
    exact absurd hentry List.not_mem_nil
  · rintro store next updates u hsame heffect ⟨hkeeps, hstamped⟩
    exact ⟨hkeeps.update hsame heffect, hstamped.update hkeeps.nodup heffect⟩

/-! ## The node given up -/

theorem nodeStoreQuery_ne_none_iff (h : store.ids.Nodup) {nodeId : CharBuf 32} :
    nodeStoreQuery store nodeId ≠ none ↔ nodeId.bytes ≠ [] ∧ nodeId ∈ store.ids := by
  rw [Option.ne_none_iff_exists']
  constructor
  · rintro ⟨data, hquery⟩
    obtain ⟨hnamed, rfl, entry, hentry, rfl⟩ := (nodeStoreQuery_eq_some_iff h).mp hquery
    exact ⟨hnamed, List.mem_map_of_mem hentry⟩
  · rintro ⟨hnamed, hmem⟩
    obtain ⟨entry, hentry, hnode⟩ := List.mem_map.mp hmem
    exact ⟨entry.data, (nodeStoreQuery_eq_some_iff h).mpr ⟨hnamed, hnode, entry, hentry, rfl⟩⟩

/-- The look-up gives the place of a node. -/
theorem nodeStoreFind_of_getElem? (h : store.ids.Nodup) {j : ℕ} {entry : NodeEntry}
    (hentry : store.entries[j]? = some entry) :
    (nodeStoreFind store entry.data.nodeId).map Fin.val = some j := by
  obtain ⟨hj, rfl⟩ := List.getElem?_eq_some_iff.mp hentry
  cases hfind : nodeStoreFind store store.entries[j].data.nodeId with
  | none =>
    have hnone := List.findFinIdx?_eq_none_iff.mp hfind _ (List.getElem_mem hj)
    exact absurd (beq_self_eq_true _) hnone
  | some i =>
    have hnode : (store.entries.get i).data.nodeId = store.entries[j].data.nodeId :=
      beq_iff_eq.mp (FirstMatch.getElem_of_find hfind)
    have hi : store.ids[i.val]? = store.ids[j]? := by
      rw [NodeStore.ids, List.getElem?_map, List.getElem?_map, List.getElem?_eq_getElem i.isLt,
        List.getElem?_eq_getElem hj, Option.map_some, Option.map_some]
      exact congrArg some hnode
    have hlength : i.val < store.ids.length := by
      rw [NodeStore.ids, List.length_map]
      exact i.isLt
    rw [Option.map_some, (List.getElem?_inj hlength h).mp hi]

/-- A node that an update costs is the one in the slot given up. -/
theorem nodeStoreUpdate_evicts (h : nodeStoreUpdate store u.data u.now = some next)
    {nodeId : CharBuf 32} (hmem : nodeId ∈ store.ids) (hgone : nodeId ∉ next.ids) :
    store.ids[oldestEntry store.entries]? = some nodeId := by
  unfold nodeStoreUpdate at h
  rw [if_neg u.named] at h
  split at h
  · rename_i i hfind
    obtain rfl := Option.some.inj h
    have hnode : store.entries[i].data.nodeId = u.data.nodeId :=
      beq_iff_eq.mp (FirstMatch.getElem_of_find hfind)
    -- the slot keeps its node
    have hsame : (store.entries.set i ⟨u.now, u.data⟩).map (fun entry => entry.data.nodeId) =
        store.ids := by
      have hat : i.val < (store.entries.map fun entry => entry.data.nodeId).length := by
        rw [List.length_map]
        exact i.isLt
      rw [List.map_set, ← hnode, NodeStore.ids]
      refine Eq.trans (congrArg _ ?_) (List.set_getElem_self hat)
      rw [List.getElem_map]
      rfl
    rw [NodeStore.ids, hsame] at hgone
    exact absurd hmem hgone
  split at h
  · obtain rfl := Option.some.inj h
    refine absurd ?_ hgone
    rw [NodeStore.ids, List.map_append]
    exact List.mem_append_left _ hmem
  · obtain rfl := Option.some.inj h
    obtain ⟨j, hj, rfl⟩ := List.getElem_of_mem hmem
    by_cases hat : oldestEntry store.entries = j
    · rw [hat]
      exact List.getElem?_eq_getElem hj
    · refine absurd ?_ hgone
      rw [NodeStore.ids, List.map_set, List.mem_iff_getElem?]
      exact ⟨j, (List.getElem?_set_ne hat).trans (List.getElem?_eq_getElem hj)⟩

/-- The entry in that slot against any other. -/
theorem oldestEntry_order {entries : List NodeEntry} {victim entry : NodeEntry} {j : ℕ}
    (hvictim : entries[oldestEntry entries]? = some victim) (hentry : entries[j]? = some entry)
    (hne : j ≠ oldestEntry entries) :
    victim.lastUpdate < entry.lastUpdate ∨
      victim.lastUpdate = entry.lastUpdate ∧ oldestEntry entries < j := by
  obtain ⟨hat, -⟩ := List.getElem?_eq_some_iff.mp hvictim
  obtain ⟨oldest, holdest, hleast, hfirst⟩ :=
    oldestEntry_spec (show 0 < entries.length by omega)
  obtain rfl : victim = oldest := Option.some.inj (hvictim.symm.trans holdest)
  have hle := hleast entry (List.mem_of_getElem? hentry)
  rcases Nat.lt_or_gt_of_ne hne with hbefore | hafter
  · left
    refine hfirst entry (List.mem_of_getElem? (i := j) ?_)
    rw [List.getElem?_take_of_lt hbefore]
    exact hentry
  · omega

end

/-- **The node given up** is the one last updated in the earliest second; under a clock that
does not go back its last update came before that of each node of a later second. Of those
last updated in the same second, it is the one in the first slot. -/
theorem evicted_lastTime {maxNodes : ℕ} {slots : NodeSlots}
    (hcreate : NodeSlots.create maxNodes = some slots) {updates : List NodeUpdate}
    (hclock : updates.Pairwise fun u u' => u.now ≤ u'.now) (u : NodeUpdate)
    {nodeId other : CharBuf 32}
    (hstored : (slots.machine.state updates).query nodeId ≠ none)
    (hgone : ((slots.machine.state updates).update u).query nodeId = none)
    (hother : (slots.machine.state updates).query other ≠ none) (hne : other ≠ nodeId) :
    ∃ time time', lastTime updates nodeId = some time ∧ lastTime updates other = some time' ∧
      (time < time' ∧ lastCall updates nodeId < lastCall updates other ∨
        time = time' ∧ ∃ i j, (slots.machine.state updates).find nodeId = some i ∧
          (slots.machine.state updates).find other = some j ∧ i < j) := by
  obtain ⟨store, hholds, -, hkeeps, hstamped⟩ := NodeSlots.stamped_state hcreate updates
  obtain ⟨next, hnext, hholds'⟩ := hholds.update u
  obtain ⟨hsame, heffect⟩ := nodeStoreUpdate_effect hnext
  have hnodup' := (hkeeps.update hsame heffect).nodup
  rw [hholds.query_eq, nodeStoreQuery_ne_none_iff hkeeps.nodup] at hstored hother
  -- the node is out of the store, so the slot written was its own
  have hlost : nodeId ∉ next.ids := fun hmem =>
    (nodeStoreQuery_ne_none_iff hnodup').mpr ⟨hstored.1, hmem⟩ (by rw [← hholds'.query_eq, hgone])
  have hslot := nodeStoreUpdate_evicts hnext hstored.2 hlost
  rw [NodeStore.ids, List.getElem?_map, Option.map_eq_some_iff] at hslot
  obtain ⟨victim, hvictim, rfl⟩ := hslot
  obtain ⟨entry, hentry, rfl⟩ := List.mem_map.mp hother.2
  obtain ⟨j, hj, rfl⟩ := List.getElem_of_mem hentry
  have hat := List.getElem?_eq_getElem hj
  have hapart : j ≠ oldestEntry store.entries := by
    rintro rfl
    rw [hat] at hvictim
    exact hne (congrArg (fun entry : NodeEntry => entry.data.nodeId) (Option.some.inj hvictim))
  have htime := hstamped victim (List.mem_of_getElem? hvictim)
  have htime' := hstamped _ (List.getElem_mem hj)
  refine ⟨_, _, htime, htime', ?_⟩
  rcases oldestEntry_order hvictim hat hapart with hlt | ⟨heq, hbefore⟩
  · exact .inl ⟨hlt, lastCall_lt_of_lastTime_lt hclock htime htime' hlt⟩
  · refine .inr ⟨heq, _, j, ?_, ?_, hbefore⟩
    · rw [hholds.find_eq]
      exact nodeStoreFind_of_getElem? hkeeps.nodup hvictim
    · rw [hholds.find_eq]
      exact nodeStoreFind_of_getElem? hkeeps.nodup hat

/-- An update of the node `id` at `now`. -/
def updateOf (id : String) (now : ℤ) (h : (CharBuf.lit 32 id).bytes ≠ []) : NodeUpdate :=
  ⟨⟨.lit 32 id, 1, default⟩, now, h⟩

/-- Two nodes, and the first of them again, in seconds 0, 0 and 1. -/
def twoSeconds : List NodeUpdate :=
  [updateOf "NODE01" 0 (by decide), updateOf "NODE02" 0 (by decide),
    updateOf "NODE01" 1 (by decide)]

/-- And in one second. -/
def oneSecond : List NodeUpdate :=
  [updateOf "NODE01" 0 (by decide), updateOf "NODE02" 0 (by decide),
    updateOf "NODE01" 0 (by decide)]

/-- In two seconds the third node takes the slot of the second. -/
theorem evicted_lastTime_twoSeconds :
    ∃ slots, NodeSlots.create 2 = some slots ∧
      ∃ time time', lastTime twoSeconds (.lit 32 "NODE02") = some time ∧
        lastTime twoSeconds (.lit 32 "NODE01") = some time' ∧
        (time < time' ∧
          lastCall twoSeconds (.lit 32 "NODE02") < lastCall twoSeconds (.lit 32 "NODE01") ∨
        time = time' ∧ ∃ i j,
          (slots.machine.state twoSeconds).find (.lit 32 "NODE02") = some i ∧
          (slots.machine.state twoSeconds).find (.lit 32 "NODE01") = some j ∧ i < j) := by
  refine ⟨_, rfl, ?_⟩
  exact evicted_lastTime (rfl : NodeSlots.create 2 = some _) (by decide +kernel)
    (updateOf "NODE03" 2 (by decide)) (by decide +kernel) (by decide +kernel)
    (by decide +kernel) (by decide +kernel)

/-- **In one second it takes that of the first**, though the first was updated after the
second. -/
theorem not_lastCall_lt_oneSecond :
    ∃ slots, NodeSlots.create 2 = some slots ∧
      oneSecond.Pairwise (fun u u' => u.now ≤ u'.now) ∧
      (slots.machine.state oneSecond).query (.lit 32 "NODE01") ≠ none ∧
      ((slots.machine.state oneSecond).update (updateOf "NODE03" 0 (by decide))).query
        (.lit 32 "NODE01") = none ∧
      (slots.machine.state oneSecond).query (.lit 32 "NODE02") ≠ none ∧
      ¬ lastCall oneSecond (.lit 32 "NODE01") < lastCall oneSecond (.lit 32 "NODE02") :=
  ⟨_, rfl, by decide +kernel, by decide +kernel, by decide +kernel, by decide +kernel,
    by decide +kernel⟩

end SmartGateway
