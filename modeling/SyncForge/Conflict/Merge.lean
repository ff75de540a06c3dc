import SyncForge.Connector.Error
import Mathlib.Data.List.AList
import Mathlib.Data.List.Sort
import Mathlib.Logic.Function.Basic

/-!
# `Conflict.Merge` — field-level conflict detection and resolution

`internal/conflict/conflict.go`. A canonical record remembers which source wrote each field last
(`Provenance`); an event that changes a field another source wrote last is a conflict. The package knows
nothing of customers, so keys and values are type variables. A value stands for its JSON, which `valuesEqual`
compares.
-/

namespace SyncForge.Conflict

/-- The strategy names of `sync_policies.conflict_strategy`; any other text is `other`. -/
inductive Strategy where
  | lastWriteWins | sourcePriority | fieldMerge | manual
  | other (name : String)
deriving DecidableEq, Repr

/-- `Provenance`: who last wrote a field, at which version, when, and with which priority. -/
structure Provenance where
  source : String
  version : Int
  occurredAt : Time
  priority : Int
deriving DecidableEq, Repr

/-- `FieldConflict`: side A is the last writer, side B the incoming event. -/
structure FieldConflict (K V : Type) where
  field : K
  a : Provenance
  valueA : V
  b : Provenance
  valueB : V
deriving DecidableEq

inductive Side where
  | a | b
deriving DecidableEq, Repr

/-- `Winner`; `side = none` is the empty winner that manual resolution reports. -/
structure Winner (V : Type) where
  side : Option Side
  source : String
  version : Int
  occurredAt : Time
  value : V
deriving DecidableEq

variable {K V : Type} [LinearOrder K] [DecidableEq V] [Inhabited V]

/-! ## Detection -/

/-- The test `Detect` makes of one incoming field. -/
def detectField (persisted : K → Option V) (fp : K → Option Provenance) (by_ : Provenance)
    (field : K) (inVal : V) : Option (FieldConflict K V) :=
  match fp field with
  | none => none                            -- never written before: the incoming source claims it
  | some prov =>
    if prov.source = by_.source then none   -- same source still editing
    else if (persisted field).getD default = inVal then none
    else some { field, a := prov, valueA := (persisted field).getD default, b := by_, valueB := inVal }

/-- `Detect`. `by_` packs the event's source, version, occurrence time and priority. -/
def detect (persisted : K → Option V) (fp : K → Option Provenance) (incoming : AList (fun _ : K => V))
    (by_ : Provenance) : List (FieldConflict K V) :=
  (incoming.entries.filterMap (fun e => detectField persisted fp by_ e.1 e.2)).insertionSort
    (fun c d => c.field ≤ d.field)

/-! ## Resolution -/

def winnerA (c : FieldConflict K V) : Winner V :=
  ⟨some .a, c.a.source, c.a.version, c.a.occurredAt, c.valueA⟩

def winnerB (c : FieldConflict K V) : Winner V :=
  ⟨some .b, c.b.source, c.b.version, c.b.occurredAt, c.valueB⟩

def resolve (strategy : Strategy) (c : FieldConflict K V) : Winner V :=
  match strategy with
  | .lastWriteWins | .fieldMerge =>
    if c.a.occurredAt < c.b.occurredAt then winnerB c
    else if c.b.occurredAt < c.a.occurredAt then winnerA c
    else if c.b.priority < c.a.priority then winnerB c
    else winnerA c
  | .sourcePriority =>
    if c.b.priority < c.a.priority then winnerB c
    else if c.a.priority < c.b.priority then winnerA c
    else if c.a.occurredAt < c.b.occurredAt then winnerB c
    else winnerA c
  | .manual => ⟨none, "", 0, 0, default⟩
  | .other _ => winnerA c

/-- `normalizeStrategy`: an unknown name falls back to last-write-wins. -/
def normalizeStrategy : Strategy → Strategy
  | .other _ => .lastWriteWins
  | strategy => strategy

theorem normalizeStrategy_ne_manual {strategy : Strategy} (h : strategy ≠ .manual) :
    normalizeStrategy strategy ≠ .manual := by
  cases strategy with
  | manual => exact absurd rfl h
  | _ => intro hc; cases hc

def priorityFor (source : String) (c : FieldConflict K V) : Int :=
  if source = c.a.source then c.a.priority else c.b.priority

def find (fs : List (FieldConflict K V)) (field : K) : Option (FieldConflict K V) :=
  fs.find? (fun c => c.field = field)

/-! ## Merge -/

/-- The pair of maps `Merge` builds up: the fields and their ownership. -/
structure Ledger (K V : Type) where
  fields : K → Option V
  provenance : K → Option Provenance

/-- `out[field] = v; prov[field] = p`. -/
def Ledger.set (l : Ledger K V) (field : K) (v : V) (p : Provenance) : Ledger K V :=
  ⟨Function.update l.fields field (some v), Function.update l.provenance field (some p)⟩

/-- What `Merge` returns. -/
structure Merged (K V : Type) where
  fields : K → Option V
  provenance : K → Option Provenance
  detected : List (FieldConflict K V)
  manual : Bool

def settleConflict (strategy : Strategy) (l : Ledger K V) (c : FieldConflict K V) : Ledger K V :=
  let w := resolve strategy c
  l.set c.field w.value ⟨w.source, w.version, w.occurredAt, priorityFor w.source c⟩

def adoptField (detected : List (FieldConflict K V)) (by_ : Provenance) (l : Ledger K V)
    (e : (_ : K) × V) : Ledger K V :=
  match find detected e.1 with
  | some _ => l
  | none => l.set e.1 e.2 by_

def merge (strategy : Strategy) (persisted : K → Option V) (fp : K → Option Provenance)
    (incoming : AList (fun _ : K => V)) (by_ : Provenance) : Merged K V :=
  let detected := detect persisted fp incoming by_
  if detected = [] then
    let out := incoming.entries.foldl (adoptField [] by_) ⟨persisted, fp⟩
    ⟨out.fields, out.provenance, [], false⟩
  else if normalizeStrategy strategy = .manual then
    ⟨fun _ => none, fun _ => none, detected, true⟩
  else
    let settled := detected.foldl (settleConflict (normalizeStrategy strategy)) ⟨persisted, fp⟩
    let out := incoming.entries.foldl (adoptField detected by_) settled
    ⟨out.fields, out.provenance, detected, false⟩

/-! ## What `detect` reports -/

section Detect

variable {persisted : K → Option V} {fp : K → Option Provenance} {incoming : AList (fun _ : K => V)}
variable {by_ : Provenance} {f : K} {v : V} {c : FieldConflict K V}

omit [LinearOrder K] in
theorem detectField_eq_some (h : detectField persisted fp by_ f v = some c) :
    ∃ prov, fp f = some prov ∧ prov.source ≠ by_.source ∧ (persisted f).getD default ≠ v ∧
      c = ⟨f, prov, (persisted f).getD default, by_, v⟩ := by
  unfold detectField at h
  split at h
  · cases h
  · rename_i prov hprov
    split_ifs at h with hsrc hval
    exact ⟨prov, hprov, hsrc, hval, (Option.some.inj h).symm⟩

omit [LinearOrder K] in
theorem detectField_field (h : detectField persisted fp by_ f v = some c) : c.field = f := by
  obtain ⟨_, _, _, _, rfl⟩ := detectField_eq_some h
  rfl

omit [LinearOrder K] in
theorem detectField_of_unowned (h : ∀ prov, fp f = some prov → prov.source = by_.source) :
    detectField persisted fp by_ f v = none := by
  unfold detectField
  split
  · rfl
  · rename_i prov hprov
    rw [if_pos (h prov hprov)]

theorem mem_detect : c ∈ detect persisted fp incoming by_ ↔
      ∃ v, incoming.lookup c.field = some v ∧ detectField persisted fp by_ c.field v = some c := by
  rw [detect, List.mem_insertionSort, List.mem_filterMap]
  constructor
  · rintro ⟨⟨f, v⟩, hmem, hc⟩
    have hf : c.field = f := detectField_field hc
    subst hf
    exact ⟨v, AList.mem_lookup_iff.mpr hmem, hc⟩
  · rintro ⟨v, hv, hc⟩
    exact ⟨⟨c.field, v⟩, AList.mem_lookup_iff.mp hv, hc⟩

theorem find_detect : find (detect persisted fp incoming by_) f
      = (incoming.lookup f).bind (detectField persisted fp by_ f) := by
  cases hfind : find (detect persisted fp incoming by_) f with
  | some c =>
    obtain ⟨v, hv, hc⟩ := mem_detect.mp (List.mem_of_find?_eq_some hfind)
    have hf : c.field = f := by simpa using List.find?_some hfind
    subst hf
    rw [hv, Option.bind_some, hc]
  | none =>
    symm
    rw [Option.bind_eq_none_iff]
    intro v hv
    by_contra hne
    obtain ⟨c, hc⟩ := Option.ne_none_iff_exists'.mp hne
    have hf : c.field = f := detectField_field hc
    subst hf
    exact (List.find?_eq_none.mp hfind) c (mem_detect.mpr ⟨v, hv, hc⟩) (by simp)

theorem detect_nodup : ((detect persisted fp incoming by_).map FieldConflict.field).Nodup := by
  have hsub : ∀ l : List ((_ : K) × V),
      ((l.filterMap (fun e => detectField persisted fp by_ e.1 e.2)).map FieldConflict.field).Sublist
        (l.map Sigma.fst) := by
    intro l
    induction l with
    | nil => exact List.Sublist.slnil
    | cons e l ih =>
      cases hc : detectField persisted fp by_ e.1 e.2 with
      | none =>
        simp only [List.filterMap_cons, hc]
        exact ih.cons _
      | some c =>
        simp only [List.filterMap_cons, hc, List.map_cons, detectField_field hc]
        exact ih.cons_cons _
  have hperm := List.perm_insertionSort (fun c d : FieldConflict K V => c.field ≤ d.field)
    (incoming.entries.filterMap (fun e => detectField persisted fp by_ e.1 e.2))
  exact ((hperm.map FieldConflict.field).nodup_iff).mpr ((hsub _).nodup incoming.nodupKeys)

/-- **No conflict** is reported when every owned field is owned by the event's source or keeps its value. -/
theorem detect_eq_nil (h : ∀ f v, incoming.lookup f = some v → detectField persisted fp by_ f v = none) :
    detect persisted fp incoming by_ = [] := by
  rw [List.eq_nil_iff_forall_not_mem]
  intro c hc
  obtain ⟨v, hv, hd⟩ := mem_detect.mp hc
  rw [h _ v hv] at hd
  cases hd

end Detect

/-! ## What `merge` decides, field by field -/

def Ledger.at (l : Ledger K V) (f : K) : Option V × Option Provenance := (l.fields f, l.provenance f)

omit [DecidableEq V] [Inhabited V] in
@[simp] theorem Ledger.at_set (l : Ledger K V) (f g : K) (v : V) (p : Provenance) :
    (l.set f v p).at g = if g = f then (some v, some p) else l.at g := by
  by_cases h : g = f
  · subst h; simp [Ledger.at, Ledger.set]
  · simp [Ledger.at, Ledger.set, h]

omit [DecidableEq V] [Inhabited V] in
/-- A loop that writes each key at most once leaves at `f` what the element with key `f` wrote, if any. -/
theorem foldl_set_at {ι : Type} (step : Ledger K V → ι → Ledger K V) (key : ι → K)
    (write : ι → Option (V × Provenance))
    (hstep : ∀ l i, step l i = (match write i with | some w => l.set (key i) w.1 w.2 | none => l))
    (xs : List ι)
      (hn : (xs.map key).Nodup) (l : Ledger K V) (f : K) :
      (xs.foldl step l).at f = (match (xs.find? (fun i => key i = f)).bind write with
         | some w => (some w.1, some w.2)
         | none => l.at f) := by
  induction xs generalizing l with
  | nil => rfl
  | cons i xs ih =>
    obtain ⟨hi, hn⟩ := List.nodup_cons.mp hn
    rw [List.foldl_cons, ih hn]
    by_cases hf : key i = f
    · -- the head owns `f`; no later element does
      have hlater : xs.find? (fun i => key i = f) = none := by
        rw [List.find?_eq_none]
        intro j hj hkey
        exact hi (hf ▸ List.mem_map.mpr ⟨j, hj, by simpa using hkey⟩)
      rw [hlater, List.find?_cons_of_pos (by simpa using hf), hstep]
      cases hw : write i <;> simp [hf, hw]
    · have hhead : (step l i).at f = l.at f := by
        rw [hstep]
        cases write i <;> simp [Ne.symm hf]
      rw [hhead, List.find?_cons_of_neg (by simpa using hf)]

omit [DecidableEq V] [Inhabited V] in
theorem find?_entries (m : AList (fun _ : K => V)) (f : K) :
    m.entries.find? (fun e => e.1 = f) = (m.lookup f).map (fun v => ⟨f, v⟩) := by
  cases hfind : m.entries.find? (fun e => e.1 = f) with
  | some e =>
    obtain ⟨g, v⟩ := e
    have hg : g = f := by simpa using List.find?_some hfind
    subst hg
    rw [AList.mem_lookup_iff.mpr (List.mem_of_find?_eq_some hfind), Option.map_some]
  | none =>
    cases hv : m.lookup f with
    | none => rfl
    | some v =>
      exact absurd (List.find?_eq_none.mp hfind ⟨f, v⟩ (AList.mem_lookup_iff.mp hv)) (by simp)

/-- The value a field ends with, and its owner, when the incoming event says `v`. -/
def outcome (strategy : Strategy) (persisted : K → Option V) (fp : K → Option Provenance)
    (by_ : Provenance) (f : K) (v : V) : V × Provenance :=
  match detectField persisted fp by_ f v with
  | none => (v, by_)
  | some c =>
    let w := resolve (normalizeStrategy strategy) c
    (w.value, ⟨w.source, w.version, w.occurredAt, priorityFor w.source c⟩)

omit [DecidableEq V] [Inhabited V] in
theorem adoptField_eq (detected : List (FieldConflict K V)) (by_ : Provenance) (l : Ledger K V)
    (e : (_ : K) × V) :
    adoptField detected by_ l e = (match if (find detected e.1).isSome then none else some (e.2, by_) with
      | some w => l.set e.1 w.1 w.2
      | none => l) := by
  unfold adoptField
  cases find detected e.1 <;> rfl

section Merge

variable {strategy : Strategy} {persisted : K → Option V} {fp : K → Option Provenance}
variable {incoming : AList (fun _ : K => V)} {by_ : Provenance}

theorem loops_at (f : K) : (incoming.entries.foldl (adoptField (detect persisted fp incoming by_) by_)
        ((detect persisted fp incoming by_).foldl (settleConflict (normalizeStrategy strategy)) ⟨persisted, fp⟩)).at f
      = (match incoming.lookup f with
         | some v => ((outcome strategy persisted fp by_ f v).1, (outcome strategy persisted fp by_ f v).2)
         | none => (persisted f, fp f)) := by
  rw [foldl_set_at _ Sigma.fst _ (adoptField_eq _ by_) _ incoming.nodupKeys,
    foldl_set_at _ FieldConflict.field
      (fun c => let w := resolve (normalizeStrategy strategy) c
        some (w.value, ⟨w.source, w.version, w.occurredAt, priorityFor w.source c⟩))
      (by intro l c; rfl) _ detect_nodup, find?_entries]
  have hfind : find (detect persisted fp incoming by_) f
      = (incoming.lookup f).bind (detectField persisted fp by_ f) := find_detect
  cases hv : incoming.lookup f with
  | none =>
    rw [hv, Option.bind_none] at hfind
    rw [show (detect persisted fp incoming by_).find? (fun c => c.field = f) = none from hfind]
    rfl
  | some v =>
    rw [hv, Option.bind_some] at hfind
    rw [show (detect persisted fp incoming by_).find? (fun c => c.field = f) = _ from hfind]
    simp only [Option.map_some, Option.bind_some, hfind, outcome]
    cases detectField persisted fp by_ f v <;> rfl

section

variable (h : (merge strategy persisted fp incoming by_).manual = false)
include h

/-- `merge` when it does not park: each incoming field has its outcome, every other is untouched. -/
theorem merge_at (f : K) :
    ((merge strategy persisted fp incoming by_).fields f,
      (merge strategy persisted fp incoming by_).provenance f) = (match incoming.lookup f with
         | some v => ((outcome strategy persisted fp by_ f v).1, (outcome strategy persisted fp by_ f v).2)
         | none => (persisted f, fp f)) := by
  rw [← loops_at]
  unfold merge at h ⊢
  by_cases hnil : detect persisted fp incoming by_ = []
  · simp only [hnil, if_true, List.foldl_nil]
    rfl
  · by_cases hman : normalizeStrategy strategy = .manual
    · simp [hnil, hman] at h
    · simp only [hnil, hman, if_false]
      rfl

theorem merge_fields (f : K) :
    (merge strategy persisted fp incoming by_).fields f = (match incoming.lookup f with
         | some v => some (outcome strategy persisted fp by_ f v).1
         | none => persisted f) := by
  have hat := congrArg Prod.fst (merge_at h f)
  cases hv : incoming.lookup f <;> simpa [hv] using hat

theorem merge_provenance (f : K) :
    (merge strategy persisted fp incoming by_).provenance f = (match incoming.lookup f with
         | some v => some (outcome strategy persisted fp by_ f v).2
         | none => fp f) := by
  have hat := congrArg Prod.snd (merge_at h f)
  cases hv : incoming.lookup f <;> simpa [hv] using hat

theorem merge_of_lookup {f : K} {v : V} (hv : incoming.lookup f = some v) :
    (merge strategy persisted fp incoming by_).fields f = some (outcome strategy persisted fp by_ f v).1 ∧
      (merge strategy persisted fp incoming by_).provenance f
      = some (outcome strategy persisted fp by_ f v).2 := by
  rw [merge_fields h, merge_provenance h, hv]
  exact ⟨rfl, rfl⟩

end

theorem merge_detected : (merge strategy persisted fp incoming by_).detected
    = detect persisted fp incoming by_ := by
  unfold merge
  by_cases hnone : detect persisted fp incoming by_ = []
  · rw [hnone, if_pos rfl]
  · simp only [if_neg hnone]
    split_ifs <;> rfl

theorem merge_manual : (merge strategy persisted fp incoming by_).manual = true ↔
      detect persisted fp incoming by_ ≠ [] ∧ strategy = .manual := by
  have hnorm : normalizeStrategy strategy = .manual ↔ strategy = .manual := by
    cases strategy <;> simp [normalizeStrategy]
  unfold merge
  by_cases hnil : detect persisted fp incoming by_ = []
  · simp [hnil]
  · by_cases hman : strategy = .manual
    · simp [hnil, hman, normalizeStrategy]
    · simp [hnil, hman, hnorm]

theorem merge_ownFields (h : ∀ f prov, fp f = some prov → prov.source = by_.source) :
    (merge strategy persisted fp incoming by_).manual = false ∧ ∀ f v, incoming.lookup f = some v →
        (merge strategy persisted fp incoming by_).fields f = some v ∧
          (merge strategy persisted fp incoming by_).provenance f = some by_ := by
  have hnone : ∀ f v, detectField persisted fp by_ f v = none := fun f v => detectField_of_unowned (h f)
  have hmanual : (merge strategy persisted fp incoming by_).manual = false := by
    rw [Bool.eq_false_iff]
    intro hm
    exact (merge_manual.mp hm).1 (detect_eq_nil (fun f v _ => hnone f v))
  refine ⟨hmanual, fun f v hv => ?_⟩
  have hout : outcome strategy persisted fp by_ f v = (v, by_) := by
    unfold outcome
    rw [hnone]
  rw [(merge_of_lookup hmanual hv).1, (merge_of_lookup hmanual hv).2, hout]
  exact ⟨rfl, rfl⟩

end Merge

end SyncForge.Conflict
