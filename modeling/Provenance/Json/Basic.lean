import Provenance.Decimal.Binary64

/-!
# JSON values

Documents, maps and syntax trees are all JSON values. An object is a list of its fields; every
operation below keeps the fields in the order of their keys, by code point, with one field per
key. The lemmas on `Fields.get?` say what each operation does to the view of an object as a
partial function.
-/

namespace Provenance

/-- A JSON value. Integers and floating-point numbers stay apart, so that `1` is not `1.0`. -/
inductive Json where
  | null
  | bool (b : Bool)
  | int (n : Int)
  | float (x : Binary64)
  | string (s : String)
  | array (items : List Json)
  | object (fields : List (String × Json))
deriving Inhabited

namespace Json

/-! ### Equality -/

mutual
def beq : Json → Json → Bool
  | .null, .null => true
  | .bool a, .bool b => a == b
  | .int a, .int b => a == b
  | .float a, .float b => a == b
  | .string a, .string b => a == b
  | .array a, .array b => beqItems a b
  | .object a, .object b => beqFields a b
  | _, _ => false

def beqItems : List Json → List Json → Bool
  | [], [] => true
  | a :: as, b :: bs => beq a b && beqItems as bs
  | _, _ => false

def beqFields : List (String × Json) → List (String × Json) → Bool
  | [], [] => true
  | (k, a) :: as, (l, b) :: bs => k == l && beq a b && beqFields as bs
  | _, _ => false
end

mutual
theorem beq_iff : ∀ a b : Json, beq a b = true ↔ a = b
  | .null, b => by cases b <;> simp [beq]
  | .bool x, b => by cases b <;> simp [beq]
  | .int x, b => by cases b <;> simp [beq]
  | .float x, b => by cases b <;> simp [beq]
  | .string x, b => by cases b <;> simp [beq]
  | .array xs, b => by cases b <;> simp [beq, beqItems_iff xs]
  | .object xs, b => by cases b <;> simp [beq, beqFields_iff xs]

theorem beqItems_iff : ∀ as bs : List Json, beqItems as bs = true ↔ as = bs
  | [], bs => by cases bs <;> simp [beqItems]
  | a :: as, bs => by cases bs <;> simp [beqItems, beq_iff a, beqItems_iff as]

theorem beqFields_iff : ∀ as bs : List (String × Json), beqFields as bs = true ↔ as = bs
  | [], bs => by cases bs <;> simp [beqFields]
  | (k, a) :: as, bs => by
    cases bs with
    | nil => simp [beqFields]
    | cons b bs => simp [beqFields, beq_iff a, beqFields_iff as, Prod.ext_iff]
end

instance : DecidableEq Json := fun a b => decidable_of_iff _ (beq_iff a b)

/-! ### Fields of an object -/

/-- The fields of an object. -/
abbrev Fields := List (String × Json)

namespace Fields

/-- The value at a key. -/
def get? (key : String) : Fields → Option Json
  | [] => none
  | (k, v) :: rest => if key = k then some v else get? key rest

/-- Set the value at a key, in key order. -/
def insert (key : String) (value : Json) : Fields → Fields
  | [] => [(key, value)]
  | (k, v) :: rest =>
    if key = k then (key, value) :: rest
    else if key < k then (key, value) :: (k, v) :: rest
    else (k, v) :: insert key value rest

/-- Drop a key. -/
def erase (key : String) (fields : Fields) : Fields := fields.filter (·.1 ≠ key)

/-- Whether a key is present. -/
def contains (key : String) (fields : Fields) : Bool := (get? key fields).isSome

/-- The fields written in any order, put in key order; of two with one key the later stays. -/
def ofList (fields : List (String × Json)) : Fields :=
  fields.foldl (fun fs f => insert f.1 f.2 fs) []

@[simp] theorem get?_nil (key : String) : get? key [] = none := rfl

theorem get?_cons (key k : String) (v : Json) (rest : Fields) :
    get? key ((k, v) :: rest) = if key = k then some v else get? key rest := rfl

theorem mem_of_get? {key : String} {v : Json} {fields : Fields} (h : get? key fields = some v) :
    (key, v) ∈ fields := by
  induction fields with
  | nil => cases h
  | cons f rest ih =>
    rw [get?_cons] at h
    split at h
    · next hkey =>
      cases h
      exact hkey ▸ List.mem_cons_self
    · exact List.mem_cons_of_mem _ (ih h)

@[simp] theorem get?_insert (key key' : String) (value : Json) (fields : Fields) :
    get? key' (insert key value fields) = if key' = key then some value else get? key' fields := by
  induction fields with
  | nil => rfl
  | cons f rest ih =>
    obtain ⟨k, v⟩ := f
    grind [insert, get?]

@[simp] theorem get?_erase (key key' : String) (fields : Fields) :
    get? key' (erase key fields) = if key' = key then none else get? key' fields := by
  induction fields with
  | nil => simp [erase]
  | cons f rest ih =>
    obtain ⟨k, v⟩ := f
    grind [erase, get?]

end Fields

/-! ### Values -/

/-- The value at a key of an object; other values have no keys. -/
def get? (key : String) : Json → Option Json
  | .object fields => Fields.get? key fields
  | _ => none

/-- The fields of an object; no other value has any. -/
def fields? : Json → Option Fields
  | .object fields => some fields
  | _ => none

def string? : Json → Option String
  | .string s => some s
  | _ => none

def items? : Json → Option (List Json)
  | .array items => some items
  | _ => none

/-- The word that an integer in range stands for. -/
def word? : Json → Option UInt32
  | .int n => if 0 ≤ n ∧ n.toNat < UInt32.size then some (.ofNat n.toNat) else none
  | _ => none

/-- A word as a value. -/
def word (n : UInt32) : Json := .int n.toNat

/-- An object from fields in any order. -/
def ofFields (fields : List (String × Json)) : Json := .object (Fields.ofList fields)

/-- The value, or null when there is none. -/
def ofOption (value : Option Json) : Json := value.getD .null

mutual
/-- The value with the fields of every object in key order, one per key: the later one. -/
def canonical : Json → Json
  | .array items => .array (canonicalItems items)
  | .object fields => .object (Fields.ofList (canonicalFields fields))
  | v => v

def canonicalItems : List Json → List Json
  | [] => []
  | v :: vs => canonical v :: canonicalItems vs

def canonicalFields : List (String × Json) → List (String × Json)
  | [] => []
  | (k, v) :: fs => (k, canonical v) :: canonicalFields fs
end

@[simp] theorem word?_word (n : UInt32) : (word n).word? = some n := by
  have h : n.toNat < UInt32.size := n.toNat_lt_size
  simp [word, word?, h]

end Json

end Provenance
