import SyncForge.Connector.Adapter
import SyncForge.Conflict.Merge
import SyncForge.Relay.Queue

/-!
# `Bridge.Model` — two providers and the record that links them

One customer in two providers, with a policy each way, without rows and calls: a canonical value and an owner
for every field, what each provider holds, and the notes nobody has handled yet. A note is dropped (invalid,
stale, an echo), or merged and written to the other side.
-/

namespace SyncForge.Bridge

open Relay (Side)
open Function (update)

abbrev Values := Field → String

def customerOf (v : Values) : Customer where
  firstName := v .firstName
  lastName := v .lastName
  email := v .email
  phone := v .phone
  company := v .company

@[simp] theorem get_customerOf (v : Values) (f : Field) : (customerOf v).get f = v f := by
  cases f <;> rfl

def fingerprintOf (hash : String → String) (v : Values) : String := (customerOf v).fingerprint hash

theorem fingerprint_eq {hash : String → String} {c : Customer} {v : Values} (h : ∀ f, c.get f = v f) :
    c.fingerprint hash = fingerprintOf hash v := by
  apply Customer.fingerprint_congr
  rw [Customer.fields_inj]
  intro f
  rw [h f, get_customerOf]

structure Note where
  side : Side
  version : Int
  occurredAt : Time
  values : Values

def Valid (v : Values) : Prop := ∀ f ∈ Adapter.required, v f ≠ ""

instance (v : Values) : Decidable (Valid v) := inferInstanceAs (Decidable (∀ f ∈ Adapter.required, v f ≠ ""))

theorem valid_update {v : Values} (h : Valid v) {f : Field} (hf : f ∉ Adapter.required) (text : String) :
    Valid (update v f text) := by
  intro g hg
  have hne : g ≠ f := by
    rintro rfl
    exact hf hg
  rw [Function.update_of_ne hne]
  exact h g hg

structure Held where
  version : Int
  values : Values

structure Setting where
  name : Side → String
  priority : Side → Int
  hash : String → String
  name_ne : name .a ≠ name .b

theorem Setting.name_injective (S : Setting) : Function.Injective S.name := by
  intro x y h
  cases x <;> cases y <;> first | rfl | exact absurd h S.name_ne | exact absurd h.symm S.name_ne

structure State where
  canonical : Values
  provenance : Field → Option Conflict.Provenance
  sourceVersion : Side → Int
  /-- The fingerprint last written to a provider. -/
  lastWritten : Side → Option String
  held : Side → Held
  clock : Side → Time
  /-- Sent and not handled yet, oldest first. -/
  pending : List Note
  /-- The providers the worker wrote, in order. -/
  writes : List Side

/-! ## Merging -/

def beats (own by_ : Conflict.Provenance) : Prop :=
  own.occurredAt < by_.occurredAt ∨ own.occurredAt = by_.occurredAt ∧ by_.priority < own.priority

instance (own by_ : Conflict.Provenance) : Decidable (beats own by_) :=
  inferInstanceAs (Decidable (_ ∨ _))

def mergeField (cur : String) (own : Option Conflict.Provenance) (by_ : Conflict.Provenance) (v : String) :
    String × Conflict.Provenance :=
  match own with
  | none => (v, by_)
  | some p => if p.source = by_.source ∨ cur = v ∨ beats p by_ then (v, by_) else (cur, p)

theorem mergeField_cases (cur : String) (own : Option Conflict.Provenance) (by_ : Conflict.Provenance)
    (v : String) : mergeField cur own by_ v = (v, by_) ∨
      ∃ p, own = some p ∧ p.source ≠ by_.source ∧ cur ≠ v ∧ ¬ beats p by_ ∧
      mergeField cur own by_ v = (cur, p) := by
  unfold mergeField
  cases own with
  | none => exact .inl rfl
  | some p =>
    by_cases h : p.source = by_.source ∨ cur = v ∨ beats p by_
    · left; exact if_pos h
    · right
      obtain ⟨hsrc, hrest⟩ := not_or.mp h
      obtain ⟨hcur, hbeats⟩ := not_or.mp hrest
      exact ⟨p, rfl, hsrc, hcur, hbeats, if_neg h⟩

theorem mergeField_taken {cur : String} {own : Option Conflict.Provenance} {by_ : Conflict.Provenance}
    {v : String} (h : ∀ p, own = some p → p.source = by_.source ∨ p.occurredAt < by_.occurredAt) :
    mergeField cur own by_ v = (v, by_) := by
  rcases mergeField_cases cur own by_ v with h' | ⟨p, hp, hsrc, _, hbeats, _⟩
  · exact h'
  · rcases h p hp with hs | ht
    · exact absurd hs hsrc
    · exact absurd (.inl ht) hbeats

/-! ## Steps -/

variable (S : Setting) {x : Side} {s : State} {n : Note}

def Note.provenance (n : Note) : Conflict.Provenance :=
  ⟨S.name n.side, n.version, n.occurredAt, S.priority n.side⟩

def State.mergeNote (s : State) (n : Note) (f : Field) : String × Conflict.Provenance :=
  mergeField (s.canonical f) (s.provenance f) (n.provenance S) (n.values f)

def State.write (s : State) (x : Side) (v : Values) : State :=
  { s with
    held := update s.held x ⟨(s.held x).version + 1, v⟩
    pending := s.pending ++ [⟨x, (s.held x).version + 1, s.clock x, v⟩] }

@[simp] theorem State.held_write_self (s : State) (x : Side) (v : Values) :
    (s.write x v).held x = ⟨(s.held x).version + 1, v⟩ := by
  simp [State.write]

theorem State.held_write_ne (s : State) {y : Side} (v : Values) (h : y ≠ x) :
    (s.write x v).held y = s.held y := by
  simp [State.write, h]

def State.apply (s : State) (n : Note) : State :=
  { s.write n.side.other (fun f => (s.mergeNote S n f).1) with
    canonical := fun f => (s.mergeNote S n f).1
    provenance := fun f => some (s.mergeNote S n f).2
    sourceVersion := update s.sourceVersion n.side n.version
    lastWritten :=
      update s.lastWritten n.side.other (some (fingerprintOf S.hash (fun f => (s.mergeNote S n f).1)))
    writes := s.writes ++ [n.side.other] }

def State.Dropped (s : State) (n : Note) : Prop :=
  ¬ Valid n.values ∨ n.version ≤ s.sourceVersion n.side ∨
    s.lastWritten n.side = some (fingerprintOf S.hash n.values)

instance (s : State) (n : Note) : Decidable (s.Dropped S n) := inferInstanceAs (Decidable (_ ∨ _ ∨ _))

def State.handle (s : State) (n : Note) : State := if s.Dropped S n then s else s.apply S n

/-- The state after a note of `x` that wins every field: its values stand everywhere. -/
def State.taken (s : State) (x : Side) (n : Note) : State :=
  { s.write x.other n.values with
    canonical := n.values
    provenance := fun _ => some (n.provenance S)
    sourceVersion := update s.sourceVersion x n.version
    lastWritten := update s.lastWritten x.other (some (fingerprintOf S.hash n.values))
    writes := s.writes ++ [x.other] }

variable {S}

theorem State.apply_eq_taken (hside : n.side = x)
    (h : ∀ f p, s.provenance f = some p → p.source = S.name x ∨ p.occurredAt < n.occurredAt) :
    s.apply S n = s.taken S x n := by
  subst hside
  -- field by field the note wins
  have hmerge : ∀ f, s.mergeNote S n f = (n.values f, n.provenance S) := fun f => mergeField_taken (h f)
  simp only [State.apply, State.taken, hmerge]

theorem State.handle_eq_taken (hside : n.side = x) (hvalid : Valid n.values)
    (hnew : s.sourceVersion x < n.version) (hforeign : s.lastWritten x ≠ some (fingerprintOf S.hash n.values))
    (h : ∀ f p, s.provenance f = some p → p.source = S.name x ∨ p.occurredAt < n.occurredAt) :
    s.handle S n = s.taken S x n := by
  have hdrop : ¬ s.Dropped S n := by
    subst hside
    rintro (hinvalid | hstale | hecho)
    · exact hinvalid hvalid
    · exact absurd hnew (not_lt.mpr hstale)
    · exact hforeign hecho
  rw [State.handle, if_neg hdrop]
  exact State.apply_eq_taken hside h

variable (S)

/-- What can happen: a user edits a provider's record, the worker handles the oldest note of a provider, a
    provider's clock advances. -/
inductive Act where
  | edit (x : Side) (v : Values)
  | handle (x : Side)
  | tick (x : Side) (d : Nat)

def isFrom (x : Side) (n : Note) : Bool := n.side = x

theorem isFrom_iff : isFrom x n = true ↔ n.side = x := decide_eq_true_iff

theorem side_of_find? {ns : List Note} (h : ns.find? (isFrom x) = some n) : n.side = x :=
  isFrom_iff.mp (List.find?_some h)

/-- One step; `none` when there is nothing to handle. -/
def step (s : State) : Act → Option State
  | .edit x v => some (s.write x v)
  | .handle x =>
    (s.pending.find? (isFrom x)).map (fun n =>
      ({ s with pending := s.pending.eraseP (isFrom x) } : State).handle S n)
  | .tick x d => some { s with clock := update s.clock x (s.clock x + d) }

variable {S}

theorem step_handle {s' : State} (hn : s.pending.find? (isFrom x) = some n)
    (h : step S s (.handle x) = some s') :
    s' = ({ s with pending := s.pending.eraseP (isFrom x) } : State).handle S n := by
  obtain ⟨n', hn', rfl⟩ := Option.map_eq_some_iff.mp h
  rw [hn] at hn'
  cases hn'
  rfl

end SyncForge.Bridge
