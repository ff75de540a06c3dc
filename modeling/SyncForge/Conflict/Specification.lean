import SyncForge.Conflict.Merge

/-!
# `Conflict.Specification` — what `Merge` is for

`Meets` says, field by field and without loops, sorting or searching, what a merge has to return;
`merge_meets` is that `Merge` returns this, in whatever order its loops go through the event's map. Merging
the event again changes nothing (`merge_merge`).
-/

namespace SyncForge.Conflict

variable {K V : Type} [LinearOrder K] [DecidableEq V] [Inhabited V]

/-- The event says `v` of a field that another source wrote last, with another value. -/
def Conflicting (persisted : K → Option V) (fp : K → Option Provenance) (incoming : AList (fun _ : K => V))
    (by_ : Provenance) (f : K) (v : V) (prov : Provenance) : Prop :=
  incoming.lookup f = some v ∧ fp f = some prov ∧ prov.source ≠ by_.source ∧ (persisted f).getD default ≠ v

def Winner.takes (w : Winner V) (stored : V × Provenance) (event : V × Provenance) : V × Provenance :=
  if w.side = some .b then event else stored

/-- **The specification**, field by field. -/
structure Meets (strategy : Strategy) (persisted : K → Option V) (fp : K → Option Provenance)
    (incoming : AList (fun _ : K => V)) (by_ : Provenance) (m : Merged K V) : Prop where
  manual : m.manual = true ↔ strategy = .manual ∧ ∃ f v prov, Conflicting persisted fp incoming by_ f v prov
  parked : m.manual = true → ∀ f, m.fields f = none ∧ m.provenance f = none
  keys : m.manual = false → ∀ f, ((m.fields f).isSome ↔ (persisted f).isSome ∨ (incoming.lookup f).isSome) ∧
    ((m.provenance f).isSome ↔ (fp f).isSome ∨ (incoming.lookup f).isSome)
  kept : m.manual = false → ∀ f, incoming.lookup f = none → m.fields f = persisted f ∧ m.provenance f = fp f
  adopted : m.manual = false → ∀ f v, incoming.lookup f = some v →
    (∀ prov, ¬ Conflicting persisted fp incoming by_ f v prov) → m.fields f = some v ∧
      m.provenance f = some by_
  settled : m.manual = false → ∀ f v prov, Conflicting persisted fp incoming by_ f v prov →
    let stored := (persisted f).getD default
    let won := (resolve (normalizeStrategy strategy) ⟨f, prov, stored, by_, v⟩).takes (stored, prov) (v, by_)
    m.fields f = some won.1 ∧ m.provenance f = some won.2
  detected : ∀ c, c ∈ m.detected ↔ ∃ v prov, Conflicting persisted fp incoming by_ c.field v prov ∧
    c = ⟨c.field, prov, (persisted c.field).getD default, by_, v⟩
  sorted : (m.detected.map FieldConflict.field).Pairwise (· < ·)

section

variable {strategy : Strategy} {persisted persisted' : K → Option V} {fp fp' : K → Option Provenance}
  {incoming incoming' : AList (fun _ : K => V)} {by_ prov : Provenance} {f : K} {v : V}
    {c : FieldConflict K V}

/-! ## One field -/

theorem detectField_of_conflicting (h : Conflicting persisted fp incoming by_ f v prov) :
    detectField persisted fp by_ f v = some ⟨f, prov, (persisted f).getD default, by_, v⟩ := by
  unfold detectField
  rw [h.2.1]
  simp only [if_neg h.2.2.1, if_neg h.2.2.2]

theorem conflicting_of_detectField (hv : incoming.lookup f = some v)
    (h : detectField persisted fp by_ f v = some c) : ∃ prov, Conflicting persisted fp incoming by_ f v prov ∧
    c = ⟨f, prov, (persisted f).getD default, by_, v⟩ := by
  obtain ⟨prov, hprov, hsource, hvalue, hc⟩ := detectField_eq_some h
  exact ⟨prov, ⟨hv, hprov, hsource, hvalue⟩, hc⟩

omit [LinearOrder K] [DecidableEq V] in
theorem resolve_cases (h : strategy ≠ .manual) : resolve strategy c = winnerA c ∨
    resolve strategy c = winnerB c := by
  unfold resolve
  cases strategy with
  | manual => exact absurd rfl h
  | other name => exact .inl rfl
  | lastWriteWins => split_ifs <;> simp
  | fieldMerge => split_ifs <;> simp
  | sourcePriority => split_ifs <;> simp

omit [LinearOrder K] in
theorem outcome_of_conflict (hstrategy : strategy ≠ .manual) (h : detectField persisted fp by_ f v = some c) :
    outcome strategy persisted fp by_ f v
      = (resolve (normalizeStrategy strategy) c).takes (c.valueA, c.a) (c.valueB, c.b) := by
  obtain ⟨prov, _, hsource, _, rfl⟩ := detectField_eq_some h
  unfold outcome
  rw [h]
  rcases resolve_cases (c := ⟨f, prov, (persisted f).getD default, by_, v⟩)
    (normalizeStrategy_ne_manual hstrategy) with hw | hw
  · simp [hw, winnerA, Winner.takes, priorityFor]
  · simp [hw, winnerB, Winner.takes, priorityFor, Ne.symm hsource]

omit [LinearOrder K] in
theorem outcome_of_none (h : detectField persisted fp by_ f v = none) :
    outcome strategy persisted fp by_ f v = (v, by_) := by
  unfold outcome
  rw [h]

omit [LinearOrder K] in
theorem outcome_outcome (hstrategy : strategy ≠ .manual)
    (hfield : persisted' f = some (outcome strategy persisted fp by_ f v).1)
    (hprov : fp' f = some (outcome strategy persisted fp by_ f v).2) :
    outcome strategy persisted' fp' by_ f v = outcome strategy persisted fp by_ f v := by
  -- a field that is the event's by now
  have howned : outcome strategy persisted fp by_ f v = (v, by_) →
      outcome strategy persisted' fp' by_ f v = outcome strategy persisted fp by_ f v := by
    intro hout
    rw [hout] at hprov ⊢
    exact outcome_of_none (detectField_of_unowned
      (fun p hp => congrArg _ (Option.some.inj (hp.symm.trans hprov))))
  cases hc : detectField persisted fp by_ f v with
  | none => exact howned (outcome_of_none hc)
  | some c =>
    have hout := outcome_of_conflict hstrategy hc
    by_cases hside : (resolve (normalizeStrategy strategy) c).side = some .b
    · refine howned (hout.trans ?_)
      obtain ⟨_, _, _, _, rfl⟩ := detectField_eq_some hc
      exact if_pos hside
    · -- the event lost it, and the same conflict is detected again
      have hkept : outcome strategy persisted fp by_ f v = (c.valueA, c.a) := hout.trans (if_neg hside)
      rw [hkept] at hfield hprov
      have hagain : detectField persisted' fp' by_ f v = some c := by
        obtain ⟨prov, _, hsource, hvalue, rfl⟩ := detectField_eq_some hc
        unfold detectField
        rw [hprov, hfield]
        simp only [if_neg hsource, Option.getD_some, if_neg hvalue]
      exact (outcome_of_conflict hstrategy hagain).trans hout.symm

/-! ## The order of the loops -/

theorem detect_sorted : ((detect persisted fp incoming by_).map FieldConflict.field).Pairwise (· < ·) := by
  have hsorted : ((detect persisted fp incoming by_).map FieldConflict.field).Pairwise (· ≤ ·) :=
    List.pairwise_map.mpr (List.pairwise_insertionSort (fun c d : FieldConflict K V => c.field ≤ d.field) _)
  exact (hsorted.and detect_nodup).imp (fun h => lt_of_le_of_ne h.1 h.2)

theorem detect_perm (h : incoming'.entries.Perm incoming.entries) :
    detect persisted fp incoming' by_ = detect persisted fp incoming by_ := by
  have hperm : (detect persisted fp incoming' by_).Perm (detect persisted fp incoming by_) :=
    (List.perm_insertionSort _ _).trans ((h.filterMap _).trans (List.perm_insertionSort _ _).symm)
  refine List.Perm.eq_of_pairwise ?_ (List.pairwise_map.mp detect_sorted)
    (List.pairwise_map.mp detect_sorted) hperm
  exact fun c d _ _ hlt hgt => absurd hgt hlt.asymm

omit [DecidableEq V] [Inhabited V] in
theorem adopt_perm (h : incoming'.entries.Perm incoming.entries) (detected : List (FieldConflict K V))
    (l : Ledger K V) : incoming'.entries.foldl (adoptField detected by_) l
    = incoming.entries.foldl (adoptField detected by_) l := by
  have hat : ∀ f, (incoming'.entries.foldl (adoptField detected by_) l).at f
      = (incoming.entries.foldl (adoptField detected by_) l).at f := by
    intro f
    rw [foldl_set_at _ Sigma.fst _ (adoptField_eq _ _) _ incoming'.nodupKeys,
      foldl_set_at _ Sigma.fst _ (adoptField_eq _ _) _ incoming.nodupKeys,
      find?_entries, find?_entries, AList.perm_lookup h]
  cases hl : incoming.entries.foldl (adoptField detected by_) l with
  | mk fields provenance =>
    cases hl' : incoming'.entries.foldl (adoptField detected by_) l with
    | mk fields' provenance' =>
      rw [hl, hl'] at hat
      exact congrArg₂ Ledger.mk (funext fun f => congrArg Prod.fst (hat f)) (funext fun f => congrArg Prod.snd (hat f))

/-! ## The whole event -/

theorem detect_ne_nil : detect persisted fp incoming by_ ≠ [] ↔
    ∃ f v prov, Conflicting persisted fp incoming by_ f v prov := by
  constructor
  · intro h
    obtain ⟨c, hc⟩ := List.exists_mem_of_ne_nil _ h
    obtain ⟨v, hv, hd⟩ := mem_detect.mp hc
    obtain ⟨prov, hconflict, _⟩ := conflicting_of_detectField hv hd
    exact ⟨c.field, v, prov, hconflict⟩
  · rintro ⟨f, v, prov, h⟩
    intro hnil
    have hmem := mem_detect (c := ⟨f, prov, (persisted f).getD default, by_, v⟩).mpr
      ⟨v, h.1, detectField_of_conflicting h⟩
    rw [hnil] at hmem
    cases hmem

theorem not_manual (hmanual : (merge strategy persisted fp incoming by_).manual = false)
    (h : Conflicting persisted fp incoming by_ f v prov) : strategy ≠ .manual := by
  intro hs
  rw [merge_manual.mpr ⟨detect_ne_nil.mpr ⟨f, v, prov, h⟩, hs⟩] at hmanual
  cases hmanual

/-- **`Merge` meets its specification**, an unknown strategy is last-write-wins, and neither the conflicts nor
    what is adopted depends on the order in which the event's map is gone through. -/
theorem merge_meets : Meets strategy persisted fp incoming by_ (merge strategy persisted fp incoming by_) ∧
    (∀ name, merge (.other name) persisted fp incoming by_ = merge .lastWriteWins persisted fp incoming by_) ∧
    ∀ incoming', incoming'.entries.Perm incoming.entries →
      detect persisted fp incoming' by_ = detect persisted fp incoming by_ ∧
      ∀ detected l, incoming'.entries.foldl (adoptField detected by_) l
      = incoming.entries.foldl (adoptField detected by_) l := by
  refine ⟨⟨?_, ?_, ?_, ?_, ?_, ?_, ?_, ?_⟩, fun _ => rfl, fun _ h => ⟨detect_perm h, adopt_perm h⟩⟩
  · rw [merge_manual, detect_ne_nil, and_comm]
  · intro hmanual f
    obtain ⟨hne, hs⟩ := merge_manual.mp hmanual
    unfold merge
    rw [hs]
    simp only [if_neg hne, normalizeStrategy, if_true, and_self]
  · intro hmanual f
    rw [merge_fields hmanual, merge_provenance hmanual]
    cases incoming.lookup f <;> simp
  · intro hmanual f hnone
    rw [merge_fields hmanual, merge_provenance hmanual, hnone]
    exact ⟨rfl, rfl⟩
  · intro hmanual f v hv hfree
    have hnone : detectField persisted fp by_ f v = none := by
      rw [Option.eq_none_iff_forall_ne_some]
      intro c hc
      obtain ⟨prov, hconflict, _⟩ := conflicting_of_detectField hv hc
      exact hfree prov hconflict
    have hmerged := merge_of_lookup hmanual hv
    rw [outcome_of_none hnone] at hmerged
    exact hmerged
  · intro hmanual f v prov h
    have hmerged := merge_of_lookup hmanual h.1
    rw [outcome_of_conflict (not_manual hmanual h) (detectField_of_conflicting h)] at hmerged
    exact hmerged
  · intro c
    rw [merge_detected, mem_detect]
    constructor
    · rintro ⟨v, hv, hd⟩
      exact ⟨v, conflicting_of_detectField hv hd⟩
    · rintro ⟨v, prov, h, hc⟩
      exact ⟨v, h.1, (detectField_of_conflicting h).trans (congrArg some hc.symm)⟩
  · rw [merge_detected]
    exact detect_sorted

/-- **Merging again** what has been merged changes neither fields nor provenance. -/
theorem merge_merge (hstrategy : strategy ≠ .manual) :
    (merge strategy (merge strategy persisted fp incoming by_).fields (merge strategy persisted fp incoming by_).provenance
      incoming by_).fields = (merge strategy persisted fp incoming by_).fields ∧
    (merge strategy (merge strategy persisted fp incoming by_).fields (merge strategy persisted fp incoming by_).provenance
      incoming by_).provenance = (merge strategy persisted fp incoming by_).provenance := by
  let m := merge strategy persisted fp incoming by_
  let again := merge strategy m.fields m.provenance incoming by_
  have hauto : ∀ (persisted : K → Option V) fp, (merge strategy persisted fp incoming by_).manual
    = false := by
    intro persisted fp
    rw [Bool.eq_false_iff]
    exact fun hmanual => hstrategy (merge_manual.mp hmanual).2
  have hfield : ∀ f, again.fields f = m.fields f ∧ again.provenance f = m.provenance f := by
    intro f
    cases hv : incoming.lookup f with
    | none =>
      rw [merge_fields (hauto _ _), merge_provenance (hauto _ _), hv]
      exact ⟨rfl, rfl⟩
    | some v =>
      obtain ⟨hfields, hprovenance⟩ := merge_of_lookup (hauto persisted fp) hv
      obtain ⟨hfields', hprovenance'⟩ := merge_of_lookup (hauto m.fields m.provenance) hv
      rw [outcome_outcome hstrategy hfields hprovenance] at hfields' hprovenance'
      exact ⟨hfields'.trans hfields.symm, hprovenance'.trans hprovenance.symm⟩
  exact ⟨funext fun f => (hfield f).1, funext fun f => (hfield f).2⟩

theorem merge_merge_won_and_kept :
    let stored := fun k : Bool => some (⟨"salesforce", 1, if k then 3 else 8, 0⟩ : Provenance)
    let event : AList (fun _ : Bool => Nat) := [⟨true, 1⟩, ⟨false, 1⟩].toAList
    let m := merge .fieldMerge (fun _ => some 0) stored event ⟨"hubspot", 2, 5, 0⟩
    m.fields true = some 1 ∧ m.fields false = some 0 ∧
      (merge .fieldMerge m.fields m.provenance event ⟨"hubspot", 2, 5, 0⟩).fields = m.fields :=
  ⟨by decide, by decide, (merge_merge (by decide)).1⟩

end

end SyncForge.Conflict
