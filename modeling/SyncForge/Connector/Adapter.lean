import SyncForge.Connector.Error
import SyncForge.Model.Customer

/-!
# `Connector.Adapter` — schema mapping between providers and the canonical model

`internal/connectors/{salesforce,hubspot,registry}`. The two adapters differ in their names only, so an
adapter is the table of its names. The table carries what makes the mapping lossless: no two fields share a
native key, and no native key is a bookkeeping key.
-/

namespace SyncForge

/-- A provider's own field map (`map[string]any`). -/
abbrev Data := AList (fun _ : String => Any)

namespace Data

/-- `data[key]`: a missing key reads as `nil`. -/
def get (d : Data) (key : String) : Any := (d.lookup key).getD .nil

theorem get_insert_ne (d : Data) {key key' : String} (v : Any) (h : key' ≠ key) :
    get (d.insert key v) key' = get d key' := by
  simp [get, AList.lookup_insert_ne h]

end Data

structure ProviderRecord where
  id : String := ""
  sourceVersion : Int := 0
  deleted : Bool := false
  data : Data := ∅

structure Adapter where
  provider : String
  canonicalEntityType : String
  native : Field → String
  native_injective : Function.Injective native
  native_ne_deleted : ∀ f, native f ≠ "deleted"

namespace Adapter

variable (a : Adapter)

/-- The adapters' helper `s`. -/
def s : Any → String
  | .nil => ""
  | .str t => t
  | v => v.sprint

/-- The canonical fields no provider record may lack, in the order `Validate` checks them. -/
def required : List Field := [.firstName, .lastName, .email]

/-- The test `Validate` makes of one required key. -/
def present (rec : ProviderRecord) (key : String) : Bool :=
  match rec.data.lookup key with
  | none => false
  | some .nil => false
  | some v => v.sprint != ""

/-- `Validate`: the first required key that is absent, `nil` or prints as the empty string. -/
def validate (rec : ProviderRecord) : Except GoError Unit :=
  match required.find? (fun f => !present rec (a.native f)) with
  | some f => .error (.newError .schema ("missing required field " ++ a.native f))
  | none => .ok ()

def normalize (rec : ProviderRecord) : Customer where
  entityID := rec.id
  firstName := s (rec.data.get (a.native .firstName))
  lastName := s (rec.data.get (a.native .lastName))
  email := s (rec.data.get (a.native .email))
  phone := s (rec.data.get (a.native .phone))
  company := s (rec.data.get (a.native .company))
  deleted := rec.deleted

def denormalize (cust : Customer) : ProviderRecord where
  id := cust.entityID
  data := ⟨⟨"deleted", .bool cust.deleted⟩ :: Field.all.map (fun f => ⟨a.native f, .str (cust.get f)⟩), by
    have hkeys : (Field.all.map a.native).Nodup := (by decide : Field.all.Nodup).map a.native_injective
    have hdel : "deleted" ∉ Field.all.map a.native := by
      intro h
      obtain ⟨f, _, hf⟩ := List.mem_map.mp h
      exact a.native_ne_deleted f hf
    simpa [List.NodupKeys, List.keys, List.map_map, Function.comp_def] using ⟨by simpa using hdel, hkeys⟩⟩

variable {a} {rec : ProviderRecord}

@[simp] theorem get_normalize (rec : ProviderRecord) (f : Field) :
    (a.normalize rec).get f = s (rec.data.get (a.native f)) := by
  cases f <;> rfl

@[simp] theorem validate_eq_ok : a.validate rec = .ok () ↔
    ∀ f ∈ required, present rec (a.native f) = true := by
  unfold validate
  split
  · rename_i f hf
    have := List.find?_some hf
    simp only [reduceCtorEq, false_iff, not_forall]
    exact ⟨f, List.mem_of_find?_eq_some hf, by simpa using this⟩
  · rename_i hf
    simpa [List.find?_eq_none] using hf

/-- A key counts as present when the text `normalize` reads under it is not empty. -/
theorem present_iff {key : String} : present rec key = true ↔ s (rec.data.get key) ≠ "" := by
  unfold present Data.get
  cases rec.data.lookup key with
  | none => simp [s]
  | some v => cases v <;> simp [s, Any.sprint]

theorem get_denormalize (cust : Customer) (f : Field) :
    (a.denormalize cust).data.lookup (a.native f) = some (.str (cust.get f)) := by
  apply AList.mem_lookup_iff.mpr
  exact .tail _ (List.mem_map.mpr ⟨f, Field.mem_all f, rfl⟩)

theorem s_get_denormalize_union (cust : Customer) (old : Data) (f : Field) :
    s (((a.denormalize cust).data ∪ old).get (a.native f)) = cust.get f := by
  have hmem : a.native f ∈ (a.denormalize cust).data := by
    rw [← AList.lookup_isSome, get_denormalize]
    rfl
  rw [Data.get, AList.lookup_union_left hmem, get_denormalize]
  rfl

/-- **What one provider says, the other says after a push.** Whatever the record at `b` held before, it is
    then valid exactly when the record of `a` is, and reads back as the same customer. -/
theorem push_preserves (a b : Adapter) (rec there : ProviderRecord) (hash : String → String) :
    let pushed := { there with data := (b.denormalize (a.normalize rec)).data ∪ there.data }
    (b.validate pushed = .ok () ↔ a.validate rec = .ok ()) ∧ (b.normalize pushed).fields = (a.normalize rec).fields ∧
      (b.normalize pushed).fingerprint hash = (a.normalize rec).fingerprint hash := by
  intro pushed
  have hread : ∀ f, s (pushed.data.get (b.native f)) = s (rec.data.get (a.native f)) := fun f =>
    (s_get_denormalize_union _ there.data f).trans (get_normalize rec f)
  have hfields : (b.normalize pushed).fields = (a.normalize rec).fields :=
    Customer.fields_inj.mpr (fun f => by rw [get_normalize, get_normalize, hread])
  refine ⟨?_, hfields, Customer.fingerprint_congr hash hfields⟩
  simp only [validate_eq_ok, present_iff, hread]

end Adapter

/-! ## The two providers -/

def salesforce : Adapter where
  provider := "salesforce"
  canonicalEntityType := "customer"
  native := Field.name
  native_injective := by intro f g h; cases f <;> cases g <;> first | rfl | exact absurd h (by decide)
  native_ne_deleted := by intro f; cases f <;> decide

/-- `internal/connectors/hubspot`: camel case, and its own words for e-mail, phone and company. -/
def hubspot : Adapter where
  provider := "hubspot"
  canonicalEntityType := "customer"
  native
    | .firstName => "firstName"
    | .lastName => "lastName"
    | .email => "emailAddress"
    | .phone => "phoneNumber"
    | .company => "organization"
  native_injective := by intro f g h; cases f <;> cases g <;> first | rfl | exact absurd h (by decide)
  native_ne_deleted := by intro f; cases f <;> decide

/-- `registry.New`: the adapter of a provider name. -/
def registry (provider : String) : Option Adapter :=
  if provider = salesforce.provider then some salesforce
  else if provider = hubspot.provider then some hubspot
  else none

end SyncForge
