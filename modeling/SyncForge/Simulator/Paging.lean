import SyncForge.Relational.Keyset
import SyncForge.World

/-!
# `Simulator.Paging` — listing a provider page by page

`Store.List` pages through its records in the order of their ids, by the last id of the page before. Records
are only ever deleted softly, so a cursor goes on naming a record, and a walk misses none that was there at
its start and lists none twice, whatever is written between its pages (`walk_complete`).
-/

namespace SyncForge

open Relational

namespace SimServer

variable {s : SimServer} {r : SimRecord} {cursor : String} {limit : Int}

instance : Std.Total (fun r r' : SimRecord => r.id ≤ r'.id) := ⟨fun r r' => le_total r.id r'.id⟩

instance : IsTrans SimRecord (fun r r' => r.id ≤ r'.id) := ⟨fun _ _ _ => le_trans⟩

theorem mem_sorted : r ∈ s.sorted ↔ r ∈ s.records.rows := (List.perm_insertionSort _ _).mem_iff

theorem sorted_lt (s : SimServer) : s.sorted.Pairwise (fun r r' => r.id < r'.id) := by
  have hle : s.sorted.Pairwise (fun r r' => r.id ≤ r'.id) := List.pairwise_insertionSort _ _
  have hne : s.sorted.Pairwise (fun r r' => r.id ≠ r'.id) := by
    have hnodup : (s.sorted.map SimRecord.id).Nodup :=
      ((List.perm_insertionSort _ _).map _).nodup_iff.mpr s.records.nodup
    exact List.pairwise_map.mp hnodup
  exact (hle.and hne).imp (fun h => lt_of_le_of_ne h.1 h.2)

theorem pageSize_pos (limit : Int) : 0 < pageSize limit := by
  unfold pageSize
  split_ifs
  · decide
  · omega

theorem after_eq (recs : List SimRecord) (hcursor : cursor ≠ "") :
    after cursor recs = Keyset.after SimRecord.id cursor recs := by
  unfold after Keyset.after
  rw [if_neg hcursor]
  cases recs.dropWhile (fun r => r.id ≠ cursor) <;> rfl

theorem after_suffix (cursor : String) (recs : List SimRecord) : after cursor recs <:+ recs := by
  by_cases hempty : cursor = ""
  · simp only [after, if_pos hempty, List.suffix_rfl]
  · rw [after_eq _ hempty]
    exact Keyset.after_suffix _ _

theorem after_sorted_lt (s : SimServer) (cursor : String) :
    (after cursor s.sorted).Pairwise (fun r r' => r.id < r'.id) :=
  (sorted_lt s).sublist (after_suffix cursor s.sorted).sublist

theorem list_next (hnext : (s.list cursor limit).2 ≠ "") : (s.list cursor limit).1.length = pageSize limit ∧
      ∃ z, (s.list cursor limit).1.getLast? = some z ∧ (s.list cursor limit).2 = z.id := by
  have hnext' : (if ((after cursor s.sorted).take (pageSize limit)).length < pageSize limit then ""
      else ((((after cursor s.sorted).take (pageSize limit)).getLast?).map SimRecord.id).getD "") ≠ "" := hnext
  split_ifs at hnext' with hshort
  · exact absurd rfl hnext'
  · refine ⟨le_antisymm (List.length_take_le _ _) (not_lt.mp hshort), ?_⟩
    show ∃ z, ((after cursor s.sorted).take (pageSize limit)).getLast? = some z ∧ (ite _ _ _) = z.id
    rw [if_neg hshort]
    cases hlast : ((after cursor s.sorted).take (pageSize limit)).getLast? with
    | none =>
      rw [hlast] at hnext'
      exact absurd rfl hnext'
    | some z => exact ⟨z, rfl, rfl⟩

theorem list_append (hnext : (s.list cursor limit).2 ≠ "") :
    (s.list cursor limit).1 ++ after (s.list cursor limit).2 s.sorted = after cursor s.sorted := by
  obtain ⟨_, z, hz, hid⟩ := list_next hnext
  rw [after_eq _ hnext, hid, Keyset.after_last (sorted_lt s) (after_suffix cursor s.sorted) hz]
  exact List.take_append_drop _ _

theorem list_last (hids : ∀ r ∈ (s.list cursor limit).1, r.id ≠ "") (hnext : (s.list cursor limit).2 = "") :
    (s.list cursor limit).1 = after cursor s.sorted := by
  have hnext' : (if ((after cursor s.sorted).take (pageSize limit)).length < pageSize limit then ""
      else ((((after cursor s.sorted).take (pageSize limit)).getLast?).map SimRecord.id).getD "") = "" := hnext
  show (after cursor s.sorted).take (pageSize limit) = after cursor s.sorted
  split_ifs at hnext' with hshort
  · rw [List.length_take] at hshort
    exact List.take_of_length_le (by omega)
  · cases hlast : ((after cursor s.sorted).take (pageSize limit)).getLast? with
    | none =>
      have hnil := List.getLast?_eq_none_iff.mp hlast
      rw [hnil] at hshort
      exact absurd (pageSize_pos limit) hshort
    | some z =>
      rw [hlast] at hnext'
      exact absurd hnext' (hids z (List.mem_of_getLast? hlast))

/-- **A record beyond the cursor** is on the page, or beyond the cursor of the next page. -/
theorem list_covers (hr : r ∈ s.records.rows) (hcursor : cursor = "" ∨ cursor < r.id)
    (hids : ∀ r ∈ (s.list cursor limit).1, r.id ≠ "") : r ∈ (s.list cursor limit).1 ∨
    (s.list cursor limit).2 ≠ "" ∧ (s.list cursor limit).2 < r.id := by
  have hsorted : r ∈ s.sorted := mem_sorted.mpr hr
  have hafter : r ∈ after cursor s.sorted := by
    by_cases hempty : cursor = ""
    · unfold after
      rwa [if_pos hempty]
    · rw [after_eq _ hempty]
      exact Keyset.mem_after (sorted_lt s) hsorted (hcursor.resolve_left hempty)
  by_cases hmem : r ∈ (s.list cursor limit).1
  · exact .inl hmem
  · by_cases hnext : (s.list cursor limit).2 = ""
    · rw [list_last hids hnext] at hmem
      exact absurd hafter hmem
    · obtain ⟨_, z, hz, hid⟩ := list_next hnext
      refine .inr ⟨hnext, ?_⟩
      rw [hid]
      exact Keyset.lt_of_not_mem_take (after_sorted_lt s cursor) hafter hmem (List.mem_of_getLast? hz)

/-! ## A walk while the store is written to -/

inductive Write where
  | clock (now : Time)
  | insert (data : Data)
  | update (id : String) (data : Data)
  | softDelete (id : String)

def write (s : SimServer) : Write → SimServer
  | .clock now => { s with clock := now }
  | .insert data => (s.insert data).2
  | .update id data => ((s.update id data).map Prod.snd).getD s
  | .softDelete id => ((s.softDelete id).map Prod.snd).getD s

/-- The records of a walk from a cursor; `batches` are the writes after its pages. `none` where it needs more
    pages. -/
def walk (limit : Int) : List (List Write) → SimServer → String → Option (List SimRecord)
  | batches, s, cursor =>
    if (s.list cursor limit).2 = "" then some (s.list cursor limit).1
    else
      match batches with
      | [] => none
      | batch :: batches => (walk limit batches (batch.foldl write s) (s.list cursor limit).2).map ((s.list cursor limit).1 ++ ·)

def Has (s : SimServer) (id : String) : Prop := ∃ r ∈ s.records.rows, r.id = id

theorem has_upsert {x : SimRecord} {id : String} {records : Table SimRecord String SimRecord.id} :
    (∃ r ∈ (records.upsert x).rows, r.id = id) ↔ id = x.id ∨ ∃ r ∈ records.rows, r.id = id := by
  constructor
  · rintro ⟨r, hr, rfl⟩
    rcases Table.mem_upsert.mp hr with rfl | ⟨hr, _⟩
    · exact .inl rfl
    · exact .inr ⟨r, hr, rfl⟩
  · intro h
    by_cases hx : id = x.id
    · exact ⟨x, Table.mem_upsert.mpr (.inl rfl), hx.symm⟩
    · obtain ⟨r, hr, hid⟩ := h.resolve_left hx
      exact ⟨r, Table.mem_upsert.mpr (.inr ⟨hr, hid ▸ hx⟩), hid⟩

/-- **No id goes away**, and a new one is never empty. -/
theorem write_has (a : Write) (s : SimServer) (id : String) : (Has s id → Has (s.write a) id) ∧
    (Has (s.write a) id → Has s id ∨ id ≠ "") := by
  -- a record that is written to was there
  have hkept : ∀ {x old : SimRecord}, s.records.get? old.id = some old → x.id = old.id →
      (Has s id ↔ Has { s with records := s.records.upsert x } id) := by
    intro x old hold hid
    refine ⟨fun h => has_upsert.mpr (.inr h), fun h => ?_⟩
    rcases has_upsert.mp h with rfl | h
    · exact ⟨old, Table.mem_of_get? hold, hid.symm⟩
    · exact h
  have hsame : ∀ {s' : SimServer}, (Has s id ↔ Has s' id) → (Has s id → Has s' id) ∧
    (Has s' id → Has s id ∨ id ≠ "") :=
    fun h => ⟨h.mp, fun h' => .inl (h.mpr h')⟩
  cases a with
  | clock now => exact hsame Iff.rfl
  | insert data =>
    refine ⟨fun h => has_upsert.mpr (.inr h), fun h => ?_⟩
    rcases has_upsert.mp h with rfl | h
    · exact .inr (genID_ne_empty s)
    · exact .inl h
  | update id' data =>
    apply hsame
    cases hupdate : s.update id' data with
    | none => simp only [write, hupdate, Option.map_none, Option.getD_none]
    | some p =>
      obtain ⟨old, hold, hx, hs'⟩ := update_eq_some hupdate
      simp only [write, hupdate, Option.map_some, Option.getD_some, hs']
      rw [← Table.get?_key hold] at hold
      exact hkept hold (by rw [hx])
  | softDelete id' =>
    apply hsame
    cases hdelete : s.softDelete id' with
    | none => simp only [write, hdelete, Option.map_none, Option.getD_none]
    | some p =>
      obtain ⟨old, hold, hx, hs'⟩ := softDelete_eq_some hdelete
      simp only [write, hdelete, Option.map_some, Option.getD_some, hs']
      rw [← Table.get?_key hold] at hold
      exact hkept hold (by rw [hx])

theorem writes_has (batch : List Write) (s : SimServer) (id : String) :
    (Has s id → Has (batch.foldl write s) id) ∧ (Has (batch.foldl write s) id → Has s id ∨ id ≠ "") := by
  induction batch generalizing s with
  | nil => exact ⟨fun h => h, .inl⟩
  | cons a batch ih =>
    obtain ⟨hkeep, hnew⟩ := write_has a s id
    refine ⟨fun h => (ih _).1 (hkeep h), fun h => ?_⟩
    rcases (ih _).2 h with h | h
    · exact hnew h
    · exact .inr h

theorem lt_of_mem_after (hcursor : cursor = "" ∨ Has s cursor) (hr : r ∈ after cursor s.sorted) :
    cursor = "" ∨ cursor < r.id := by
  rcases hcursor with rfl | ⟨z, hz, rfl⟩
  · exact .inl rfl
  · by_cases hempty : z.id = ""
    · exact .inl hempty
    · obtain ⟨pre, rest, hsplit⟩ := List.append_of_mem (mem_sorted.mpr hz)
      have hsorted := sorted_lt s
      rw [after_eq _ hempty] at hr
      rw [hsplit, List.pairwise_append, List.pairwise_cons] at hsorted
      rw [hsplit, Keyset.after_append (fun x hx => (hsorted.2.2 x hx z (.head _)).ne)] at hr
      exact .inr (hsorted.2.1.1 r hr)

def Covers (s : SimServer) (cursor : String) (recs : List SimRecord) : Prop :=
  recs.Pairwise (fun r r' => r.id < r'.id) ∧ (∀ r ∈ recs, cursor = "" ∨ cursor < r.id) ∧
    ∀ r ∈ s.records.rows, cursor = "" ∨ cursor < r.id → ∃ r' ∈ recs, r'.id = r.id

variable {recs : List SimRecord}

theorem covers_page (hids : ¬ Has s "") (hcursor : cursor = "" ∨ Has s cursor)
    (hlast : (s.list cursor limit).2 = "" → recs = [])
    (hrest : (s.list cursor limit).2 ≠ "" → Has s (s.list cursor limit).2 → Covers s (s.list cursor limit).2 recs) :
    Covers s cursor ((s.list cursor limit).1 ++ recs) := by
  have hpage : ∀ r ∈ (s.list cursor limit).1, r ∈ after cursor s.sorted := fun r hr => List.mem_of_mem_take hr
  have hrow : ∀ r ∈ (s.list cursor limit).1, r ∈ s.records.rows :=
    fun r hr => mem_sorted.mp ((after_suffix cursor s.sorted).subset (hpage r hr))
  have hnamed : ∀ r ∈ (s.list cursor limit).1, r.id ≠ "" := fun r hr hid => hids ⟨r, hrow r hr, hid⟩
  have hlt : (s.list cursor limit).1.Pairwise (fun r r' => r.id < r'.id) :=
    (after_sorted_lt s cursor).sublist (List.take_sublist _ _)
  have hbeyond : ∀ r ∈ (s.list cursor limit).1, cursor = "" ∨ cursor < r.id :=
    fun r hr => lt_of_mem_after hcursor (hpage r hr)
  by_cases hnext : (s.list cursor limit).2 = ""
  · rw [hlast hnext, List.append_nil]
    refine ⟨hlt, hbeyond, fun r hr h => ?_⟩
    rcases list_covers hr h hnamed with hmem | ⟨hmore, _⟩
    · exact ⟨r, hmem, rfl⟩
    · exact absurd hnext hmore
  · -- the next cursor is the page's last id, so it names a record
    obtain ⟨_, z, hz, hid⟩ := list_next hnext
    have hzmem := List.mem_of_getLast? hz
    obtain ⟨hsorted, hafter, hall⟩ := hrest hnext ⟨z, hrow z hzmem, hid.symm⟩
    have hle : ∀ r ∈ (s.list cursor limit).1, r.id ≤ z.id := by
      intro r hr
      rw [← List.dropLast_append_getLast? z hz] at hr hlt
      rcases List.mem_append.mp hr with hr | hr
      · exact ((List.pairwise_append.mp hlt).2.2 r hr z (.head _)).le
      · exact (congrArg SimRecord.id (List.mem_singleton.mp hr)).le
    have hbelow : ∀ r ∈ recs, z.id < r.id := fun r hr => hid ▸ (hafter r hr).resolve_left hnext
    refine ⟨List.pairwise_append.mpr ⟨hlt, hsorted, fun r hr r' hr' => (hle r hr).trans_lt (hbelow r' hr')⟩, ?_, ?_⟩
    · intro r hr
      rcases List.mem_append.mp hr with hr | hr
      · exact hbeyond r hr
      · exact (hbeyond z hzmem).imp_right (fun h => h.trans (hbelow r hr))
    · intro r hr h
      rcases list_covers hr h hnamed with hmem | ⟨_, hmore⟩
      · exact ⟨r, List.mem_append_left _ hmem, rfl⟩
      · obtain ⟨r', hr', hrid⟩ := hall r hr (.inr hmore)
        exact ⟨r', List.mem_append_right _ hr', hrid⟩

theorem covers_mono {s' : SimServer} (hs : ∀ id, Has s id → Has s' id) (h : Covers s' cursor recs) :
    Covers s cursor recs := by
  refine ⟨h.1, h.2.1, fun r hr hcursor => ?_⟩
  obtain ⟨r', hr', hid⟩ := hs r.id ⟨r, hr, rfl⟩
  rw [← hid] at hcursor ⊢
  exact h.2.2 r' hr' hcursor

/-- **The walk**: every page is followed by a walk of a store with the same ids or more. -/
theorem walk_covers {batches : List (List Write)} (hids : ¬ Has s "")
    (hcursor : cursor = "" ∨ Has s cursor) (h : walk limit batches s cursor = some recs) :
    Covers s cursor recs := by
  induction batches generalizing s cursor recs with
  | nil =>
    rw [walk] at h
    split_ifs at h with hnext
    cases h
    rw [← List.append_nil (s.list cursor limit).1]
    exact covers_page hids hcursor (fun _ => rfl) (fun hmore => absurd hnext hmore)
  | cons batch batches ih =>
    rw [walk] at h
    split_ifs at h with hnext
    · cases h
      rw [← List.append_nil (s.list cursor limit).1]
      exact covers_page hids hcursor (fun _ => rfl) (fun hmore => absurd hnext hmore)
    · obtain ⟨rest, hrest, rfl⟩ := Option.map_eq_some_iff.mp h
      have hids' : ¬ Has (batch.foldl write s) "" := fun h' => ((writes_has batch s "").2 h').elim hids (fun h => h rfl)
      refine covers_page hids hcursor (fun h => absurd h hnext) (fun _ hnamed => ?_)
      exact covers_mono (fun id => (writes_has batch s id).1) (ih hids' (.inr ((writes_has batch s _).1 hnamed)) hrest)

/-- **A walk through the pages**, with any writes between them, lists the ids in order and none twice, and
    every record that was there when it began exactly once. -/
theorem walk_complete {spec : SimSpec} {history : List Write} {batches : List (List Write)}
    {recs : List SimRecord} (h : walk limit batches (history.foldl write { spec }) "" = some recs) :
    recs.Pairwise (fun r r' => r.id < r'.id) ∧ (∀ id, (recs.map SimRecord.id).count id ≤ 1) ∧
      ∀ r ∈ (history.foldl write { spec }).records.rows, (recs.map SimRecord.id).count r.id = 1 := by
  have hids : ¬ Has (history.foldl write { spec }) "" := by
    intro hempty
    rcases (writes_has history { spec } "").2 hempty with ⟨r, hr, _⟩ | h
    · exact List.not_mem_nil hr
    · exact h rfl
  obtain ⟨hlt, _, hall⟩ := walk_covers hids (.inl rfl) h
  have hnodup : (recs.map SimRecord.id).Nodup := List.pairwise_map.mpr (hlt.imp (fun h => h.ne))
  refine ⟨hlt, List.nodup_iff_count_le_one.mp hnodup, fun r hr => ?_⟩
  obtain ⟨r', hr', hid⟩ := hall r hr (.inl rfl)
  exact List.count_eq_one_of_mem hnodup (hid ▸ List.mem_map_of_mem hr')

theorem walk_complete_two : ∃ recs, walk 1 [[.softDelete "sf-000001", .insert ∅], [], []]
    ([.insert ∅, .insert ∅].foldl write { spec := ⟨"salesforce", "customer", "id", "sf-", "t1"⟩ }) ""
      = some recs ∧ recs.Pairwise (fun r r' => r.id < r'.id) := by
  have hwalk : (walk 1 [[.softDelete "sf-000001", .insert ∅], [], []]
      ([.insert ∅, .insert ∅].foldl write { spec := ⟨"salesforce", "customer", "id", "sf-", "t1"⟩ }) "").isSome = true := by
    decide +kernel
  obtain ⟨recs, hrecs⟩ := Option.isSome_iff_exists.mp hwalk
  exact ⟨recs, hrecs, (walk_complete hrecs).1⟩

end SimServer

end SyncForge
