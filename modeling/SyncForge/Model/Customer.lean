import Mathlib.Data.List.AList
import Mathlib.Order.Basic
import Mathlib.Tactic.Linarith
import SyncForge.Encoding.Labelled

/-!
# `Model.Customer` — the canonical customer

`internal/model/customer.go`. A canonical customer has five string fields; `Fields` turns it into the field
map that is persisted and merged, `FromFields` reads one back, and `Fingerprint` is the text whose hash is
the loop-prevention key. Field names are the enumeration `Field`: no code path builds a canonical field map
with any other key.
-/

namespace SyncForge

/-- A Go `any` that came out of JSON. The code tells apart `nil`, strings and booleans; a number, a list or
    an object is only ever printed, by `fmt.Sprint` or by `json.Marshal`. -/
inductive Any where
  | nil
  | str (s : String)
  | bool (b : Bool)
  | other (sprint json : String)
deriving DecidableEq, Repr

instance : Inhabited Any := ⟨.nil⟩

namespace Any

def sprint : Any → String
  | .nil => "<nil>"
  | .str s => s
  | .bool b => if b then "true" else "false"
  | .other text _ => text

/-- `model.str`: the string a field map's value stands for. -/
def text : Any → String
  | .nil => ""
  | .str s => s
  | .bool b => if b then "true" else "false"
  | .other _ json => json

end Any

/-! ## Field names -/

inductive Field where
  | firstName | lastName | email | phone | company
deriving DecidableEq, Repr, Inhabited

namespace Field

def name : Field → String
  | .firstName => "first_name"
  | .lastName => "last_name"
  | .email => "email"
  | .phone => "phone"
  | .company => "company"

def all : List Field := [.firstName, .lastName, .email, .phone, .company]

theorem mem_all (f : Field) : f ∈ all := by
  cases f <;> decide

def rank : Field → Nat
  | .company => 0
  | .email => 1
  | .firstName => 2
  | .lastName => 3
  | .phone => 4

theorem rank_injective : Function.Injective rank := by
  intro f g h
  cases f <;> cases g <;> first | rfl | exact absurd h (by decide)

/-- Fields are ordered by name, the order `Detect` sorts its conflicts in. -/
instance : LinearOrder Field := LinearOrder.lift' rank rank_injective

theorem lt_iff_name_lt (f g : Field) : f < g ↔ f.name < g.name := by
  cases f <;> cases g <;> decide

end Field

/-! ## Customers -/

/-- `model.Customer`, with the fields the connectors and the worker read. -/
structure Customer where
  entityID : String := ""
  firstName : String := ""
  lastName : String := ""
  email : String := ""
  phone : String := ""
  company : String := ""
  deleted : Bool := false
deriving DecidableEq, Repr, Inhabited

/-- A canonical field map: `map[string]any` keyed by field name, `none` where the key is absent. -/
abbrev FieldMap := Field → Option Any

namespace Customer

def get (c : Customer) : Field → String
  | .firstName => c.firstName
  | .lastName => c.lastName
  | .email => c.email
  | .phone => c.phone
  | .company => c.company

/-- `Fields`: all five keys are present, and every value is a string. -/
def fields (c : Customer) : FieldMap := fun f => some (.str (c.get f))

/-- `Fields` as the finite map `Merge` iterates over. -/
def fieldEntries (c : Customer) : AList (fun _ : Field => Any) :=
  ⟨Field.all.map (fun f => ⟨f, .str (c.get f)⟩), by
    have h : (Field.all.map fun f => f).Nodup := by decide
    rwa [List.NodupKeys, List.keys, List.map_map]⟩

/-- `FromFields`: a missing key reads as the empty string. -/
def fromFields (c : Customer) (fields : FieldMap) : Customer :=
  let read := fun f => ((fields f).getD .nil).text
  { c with
    firstName := read .firstName
    lastName := read .lastName
    email := read .email
    phone := read .phone
    company := read .company }

/-- The text `Fingerprint` hashes. -/
def fingerprintText (c : Customer) : String :=
  "first_name=" ++ c.firstName ++ "|last_name=" ++ c.lastName ++ "|email=" ++ c.email
    ++ "|phone=" ++ c.phone ++ "|company=" ++ c.company

/-- `Fingerprint`: the hash (SHA-256, in hexadecimal) of the field values. -/
def fingerprint (hash : String → String) (c : Customer) : String := hash c.fingerprintText

theorem fields_inj {c d : Customer} : c.fields = d.fields ↔ ∀ f, c.get f = d.get f := by
  constructor
  · intro h f
    have hf := congrFun h f
    simpa [fields] using hf
  · intro h
    funext f
    simp [fields, h f]

theorem fingerprint_congr (hash : String → String) {c d : Customer} (h : c.fields = d.fields) :
    c.fingerprint hash = d.fingerprint hash := by
  have hg := fields_inj.mp h
  have h1 : c.firstName = d.firstName := hg .firstName
  have h2 : c.lastName = d.lastName := hg .lastName
  have h3 : c.email = d.email := hg .email
  have h4 : c.phone = d.phone := hg .phone
  have h5 : c.company = d.company := hg .company
  have ht : c.fingerprintText = d.fingerprintText := by
    unfold fingerprintText
    rw [h1, h2, h3, h4, h5]
  exact congrArg hash ht

/-! ### What a fingerprint tells apart -/

/-- The values of the text after the first, each with the label before it. -/
def labelled (c : Customer) : List (List Char × List Char) :=
  [("|last_name=".toList, c.lastName.toList), ("|email=".toList, c.email.toList),
    ("|phone=".toList, c.phone.toList), ("|company=".toList, c.company.toList)]

/-- No field holds the label before it or the label after it in the text of the fingerprint. -/
def Separable (c : Customer) : Prop := Encoding.Clear c.firstName.toList c.labelled

instance (c : Customer) : Decidable c.Separable := Encoding.Clear.decidable c.firstName.toList c.labelled

theorem toList_fingerprintText (c : Customer) :
    c.fingerprintText.toList = "first_name=".toList ++ Encoding.join c.firstName.toList c.labelled := by
  unfold fingerprintText labelled
  -- the labels themselves do not matter
  generalize "first_name=" = l0, "|last_name=" = l1, "|email=" = l2, "|phone=" = l3, "|company=" = l4
  simp only [Encoding.join, String.toList_append, List.append_assoc]

theorem labelled_labels (c : Customer) : Encoding.Labels '|' (c.labelled.map Prod.fst) := by
  show Encoding.Labels '|' ["|last_name=".toList, "|email=".toList, "|phone=".toList, "|company=".toList]
  refine ⟨fun label hlabel => ?_, by decide⟩
  have hbars : ∀ label ∈ ["|last_name=".toList, "|email=".toList, "|phone=".toList, "|company=".toList],
      label = '|' :: label.tail ∧ '|' ∉ label.tail := by decide
  exact ⟨label.tail, hbars label hlabel⟩

/-- **A separable customer's text** is that of no other fields. -/
theorem fingerprintText_inj {c d : Customer} (hc : c.Separable) (h : d.fingerprintText = c.fingerprintText)
    (f : Field) : d.get f = c.get f := by
  have htext := congrArg String.toList h
  rw [toList_fingerprintText, toList_fingerprintText] at htext
  have hsame : d.labelled.map Prod.fst = c.labelled.map Prod.fst := rfl
  obtain ⟨hfirst, hrest⟩ := hc.join_inj c.labelled_labels hsame (List.append_cancel_left htext).symm
  simp only [labelled, List.cons.injEq, Prod.mk.injEq, true_and, and_true] at hrest
  rw [← String.toList_inj]
  cases f with
  | firstName => exact hfirst.symm
  | lastName => exact hrest.1.symm
  | email => exact hrest.2.1.symm
  | phone => exact hrest.2.2.1.symm
  | company => exact hrest.2.2.2.symm

/-- **Any other customer's text** is that of some customer with other fields. -/
theorem exists_fingerprintText_eq {c : Customer} (hc : ¬ c.Separable) :
    ∃ d : Customer, (∃ f, d.get f ≠ c.get f) ∧ d.fingerprintText = c.fingerprintText := by
  obtain ⟨first, rest, hsame, hjoin, hne⟩ := Encoding.exists_join_eq c.labelled_labels hc
  have hlabels : rest.map Prod.fst = ["|last_name=".toList, "|email=".toList, "|phone=".toList,
    "|company=".toList] := hsame
  obtain ⟨⟨_, last⟩, rest1, rfl, rfl, h1⟩ := List.map_eq_cons_iff.mp hlabels
  obtain ⟨⟨_, email⟩, rest2, rfl, rfl, h2⟩ := List.map_eq_cons_iff.mp h1
  obtain ⟨⟨_, phone⟩, rest3, rfl, rfl, h3⟩ := List.map_eq_cons_iff.mp h2
  obtain ⟨⟨_, company⟩, rest4, rfl, rfl, h4⟩ := List.map_eq_cons_iff.mp h3
  obtain rfl := List.map_eq_nil_iff.mp h4
  refine ⟨⟨"", .ofList first, .ofList last, .ofList email, .ofList phone, .ofList company, false⟩, ?_, ?_⟩
  · by_contra hall
    have hread : ∀ f, _ = c.get f := fun f => not_not.mp (fun hf => hall ⟨f, hf⟩)
    have hfirst : String.ofList first = c.firstName := hread .firstName
    have hlast : String.ofList last = c.lastName := hread .lastName
    have hemail : String.ofList email = c.email := hread .email
    have hphone : String.ofList phone = c.phone := hread .phone
    have hcompany : String.ofList company = c.company := hread .company
    refine hne ⟨?_, ?_⟩
    · rw [← hfirst, String.toList_ofList]
    · rw [labelled, ← hlast, ← hemail, ← hphone, ← hcompany]
      simp only [String.toList_ofList]
  · rw [← String.toList_inj, toList_fingerprintText, toList_fingerprintText, ← hjoin]
    simp only [labelled, String.toList_ofList]

@[simp] theorem get_fromFields (c : Customer) (fields : FieldMap) (f : Field) :
    (c.fromFields fields).get f = ((fields f).getD .nil).text := by
  cases f <;> rfl

@[simp] theorem lookup_fieldEntries [DecidableEq Field] (c : Customer) (f : Field) :
    c.fieldEntries.lookup f = some (.str (c.get f)) := by
  apply AList.mem_lookup_iff.mpr
  exact List.mem_map.mpr ⟨f, Field.mem_all f, rfl⟩

end Customer

end SyncForge
