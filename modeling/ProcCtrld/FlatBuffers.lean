import Mathlib.Data.List.Forall2

/-!
# ProcCtrld.FlatBuffers

FlatBuffers seen from the generated code: a builder that stores strings, vectors and tables one after
the other and hands out offsets to them, and accessors that read the finished buffer.

A stored object never changes and only refers to objects stored before it, so the builder keeps
the objects unfolded (`Value`). Bytes are not modelled; `Faithful` is what a program relies on: the
buffer of a root that conforms to the schema is not empty, and reading it gives that root back.

* `Build`    — builder calls; an offset that is not there, a scalar that does not fit its type and a
  vector of another length than announced make them fail.
* `Builds`   — the calls succeed, only add objects and end with the given postcondition; the rules
  `Builds.bind`, `createVector_builds`, `createTable_builds` and so on give the triples of a program.
* `scalarAt`, `stringAt`, `vectorAt`, `tableAt` — the accessors.
-/

namespace FlatBuffers

/-- A boolean is stored as a `uint8`. -/
inductive ScalarType where
  | uint8
  | int8
  | uint16
  | uint32
  | int32
deriving DecidableEq, Repr

def ScalarType.fits : ScalarType → Int → Bool
  | .uint8, v => 0 ≤ v && v < 256
  | .int8, v => -128 ≤ v && v < 128
  | .uint16, v => 0 ≤ v && v < 65536
  | .uint32, v => 0 ≤ v && v < 4294967296
  | .int32, v => -2147483648 ≤ v && v < 2147483648

/-- An object with everything it refers to. A table has an entry for each field of its type, in the
order of the schema; field `i` is at offset `4 + 2 * i` of the vtable. -/
inductive Value where
  | scalar (type : ScalarType) (v : Int)
  | string (s : String)
  | vector (elems : List Value)
  | table (fields : List (Option Value))

abbrev Offset := Nat

/-! ## The builder -/

/-- Builder calls, on the objects stored so far. -/
abbrev Build := StateT (List Value) Option

def store (v : Value) : Build Offset := fun objs => some (objs.length, objs ++ [v])

def lookup (o : Offset) : Build Value := fun objs => objs[o]?.map (·, objs)

def createString (s : String) : Build Offset := store (.string s)

/-- A call of `Prepend`: the buffer grows downwards, so the element comes before the others. -/
def prepend (elems : List Value) (o : Offset) : Build (List Value) := do
  let v ← lookup o
  return v :: elems

/-- `StartVector(n)`, a `Prepend` for each of the calls, `EndVector`. -/
def prependVector (n : Nat) (calls : List Offset) : Build Offset := do
  let elems ← calls.foldlM prepend []
  if elems.length = n then store (.vector elems) else failure

/-- `CreateVector`, which prepends from the last element to the first. -/
def createVector (offsets : List Offset) : Build Offset := prependVector offsets.length offsets.reverse

/-- A field that is added to a table. All defaults are 0. -/
inductive Add where
  | scalar (field : Nat) (type : ScalarType) (v : Int)
  | offset (field : Nat) (o : Offset)
deriving DecidableEq, Repr

/-- A scalar equal to its default is not stored. -/
def scalarField (type : ScalarType) (v : Int) : Option Value :=
  if v = 0 then none else some (.scalar type v)

def addField (fields : List (Option Value)) : Add → Build (List (Option Value))
  | .scalar field type v =>
    if type.fits v then return fields.set field (scalarField type v) else failure
  | .offset field o => do
    let v ← lookup o
    return fields.set field (some v)

/-- Starts a table with `n` fields, adds to it and ends it. -/
def createTable (n : Nat) (adds : List Add) : Build Offset := do
  let fields ← adds.foldlM addField (List.replicate n none)
  store (.table fields)

/-- `Finish`: the object at the offset that the calls end with. -/
def root (calls : Build Offset) : Option Value := do
  let (o, objs) ← calls []
  objs[o]?

/-! ## The accessors -/

namespace Value

def field (i : Nat) : Value → Option Value
  | table fields => fields[i]?.join
  | _ => none

def scalarAt (i : Nat) (t : Value) : Int :=
  match t.field i with
  | some (scalar _ v) => v
  | _ => 0

def stringAt (i : Nat) (t : Value) : Option String :=
  match t.field i with
  | some (string s) => some s
  | _ => none

def vectorAt (i : Nat) (t : Value) : Option (List Value) :=
  match t.field i with
  | some (vector elems) => some elems
  | _ => none

def tableAt (i : Nat) (t : Value) : Option Value :=
  match t.field i with
  | some (table fields) => some (table fields)
  | _ => none

/-! What the verifier asks of a field that is there. -/

def verifyScalar (i : Nat) (type : ScalarType) (t : Value) : Bool :=
  match t.field i with
  | none => true
  | some (scalar type' v) => type' = type && type.fits v
  | _ => false

def verifyString (i : Nat) (t : Value) : Bool :=
  match t.field i with
  | none | some (string _) => true
  | _ => false

def verifyVector (i : Nat) (elem : Value → Bool) (t : Value) : Bool :=
  match t.field i with
  | none => true
  | some (vector elems) => elems.all elem
  | _ => false

def verifyTable (i : Nat) (accepts : Value → Bool) (t : Value) : Bool :=
  match t.field i with
  | none => true
  | some (table fields) => accepts (table fields)
  | _ => false

def isString : Value → Bool
  | string _ => true
  | _ => false

def isTable : Value → Bool
  | table _ => true
  | _ => false

end Value

/-- The finished buffer of the calls is not empty, and reading it returns the root they built. -/
def Faithful {β : Type} (accepts : Value → Bool) (bytes : Value → List β)
    (read : List β → Option Value) (calls : Build Offset) : Prop :=
  ∀ v, root calls = some v → accepts v = true → bytes v ≠ [] ∧ read (bytes v) = some v

/-! ## Reading back -/

namespace Value

variable {i : Nat} {type : ScalarType} {v : Int} {t : Value} (a : Option Value)
  (fields : List (Option Value))

theorem scalarAt_of_field (h : t.field i = scalarField type v) : t.scalarAt i = v := by
  unfold scalarAt
  rw [h]
  by_cases hv : v = 0
  · simp [scalarField, hv]
  · simp [scalarField, hv]

theorem verifyScalar_of_field (h : t.field i = scalarField type v) (hfits : type.fits v = true) :
    t.verifyScalar i type = true := by
  unfold verifyScalar
  rw [h]
  by_cases hv : v = 0
  · simp [scalarField, hv]
  · simp [scalarField, hv, hfits]

@[simp] theorem scalarAt_zero (type : ScalarType) (v : Int) :
    scalarAt 0 (table (scalarField type v :: fields)) = v :=
  scalarAt_of_field rfl

@[simp] theorem scalarAt_succ : scalarAt (i + 1) (table (a :: fields)) = scalarAt i (table fields) :=
  rfl

@[simp] theorem stringAt_zero (s : String) : stringAt 0 (table (some (string s) :: fields)) = some s :=
  rfl

@[simp] theorem stringAt_succ : stringAt (i + 1) (table (a :: fields)) = stringAt i (table fields) :=
  rfl

end Value

/-! ## Triples -/

variable {α β : Type} {objs objs' : List Value} {o : Offset} {v : Value}

def Stored (objs : List Value) (o : Offset) (v : Value) : Prop := objs[o]? = some v

theorem Stored.mono (h : Stored objs o v) (hle : objs <+: objs') : Stored objs' o v := by
  obtain ⟨new, rfl⟩ := hle
  unfold Stored at *
  rw [List.getElem?_append_left (List.getElem?_eq_some_iff.mp h).1]
  exact h

/-- The offsets refer to the values. -/
abbrev StoredAll (objs : List Value) : List Offset → List Value → Prop := List.Forall₂ (Stored objs)

theorem StoredAll.mono {os : List Offset} {vs : List Value} (h : StoredAll objs os vs)
    (hle : objs <+: objs') : StoredAll objs' os vs :=
  h.imp fun _ _ hs => hs.mono hle

/-- The calls succeed from `objs`, keep the objects there, and end as `post` says. -/
def Builds (m : Build α) (objs : List Value) (post : α → List Value → Prop) : Prop :=
  ∃ a objs', m objs = some (a, objs') ∧ objs <+: objs' ∧ post a objs'

theorem Builds.bind {m : Build α} {f : α → Build β} {P : α → List Value → Prop}
    {Q : β → List Value → Prop} (hm : Builds m objs P)
    (hf : ∀ a objs', objs <+: objs' → P a objs' → Builds (f a) objs' Q) : Builds (m >>= f) objs Q := by
  obtain ⟨a, objs₁, hm, hle₁, hP⟩ := hm
  obtain ⟨b, objs₂, hf, hle₂, hQ⟩ := hf a objs₁ hle₁ hP
  refine ⟨b, objs₂, ?_, hle₁.trans hle₂, hQ⟩
  show (m objs).bind (fun p => f p.1 p.2) = _
  rw [hm]
  exact hf

theorem Builds.pure {a : α} {Q : α → List Value → Prop} (h : Q a objs) :
    Builds (Pure.pure a : Build α) objs Q :=
  ⟨a, objs, rfl, List.prefix_refl objs, h⟩

theorem Builds.of_eq {m : Build α} {a : α} (h : m objs = some (a, objs)) :
    Builds m objs fun a' _ => a' = a :=
  ⟨a, objs, h, List.prefix_refl objs, rfl⟩

theorem Builds.root_eq {calls : Build Offset} (h : Builds calls [] fun o objs => Stored objs o v) :
    root calls = some v := by
  obtain ⟨o, objs, hcalls, -, hv⟩ := h
  simp only [root, hcalls]
  exact hv

theorem store_builds (objs : List Value) (v : Value) :
    Builds (store v) objs fun o objs' => Stored objs' o v :=
  ⟨objs.length, objs ++ [v], rfl, List.prefix_append objs [v], by simp [Stored]⟩

theorem lookup_eq (h : Stored objs o v) : lookup o objs = some (v, objs) := by
  unfold Stored at h
  simp [lookup, h]

theorem createString_builds (objs : List Value) (s : String) :
    Builds (createString s) objs fun o objs' => Stored objs' o (.string s) :=
  store_builds objs _

theorem mapM_builds {f : α → Build Offset} {g : α → Value} {as : List α}
    (hf : ∀ a ∈ as, ∀ objs, Builds (f a) objs fun o objs' => Stored objs' o (g a)) (objs : List Value) :
    Builds (as.mapM f) objs fun os objs' => StoredAll objs' os (as.map g) := by
  induction as generalizing objs with
  | nil => exact Builds.pure .nil
  | cons a as ih =>
    obtain ⟨ha, has⟩ := List.forall_mem_cons.mp hf
    rw [List.mapM_cons]
    refine (ha objs).bind fun o objs₁ _ ho => ?_
    refine (ih has objs₁).bind fun os objs₂ hle hos => ?_
    exact Builds.pure (.cons (ho.mono hle) hos)

/-- The loop of `Prepend` calls leaves the elements in the reverse order. -/
theorem foldlM_prepend {os : List Offset} {vs : List Value} (h : StoredAll objs os vs)
    (elems : List Value) : os.foldlM prepend elems objs = some (vs.reverse ++ elems, objs) := by
  induction h generalizing elems with
  | nil => rfl
  | @cons o v os vs ho hos ih =>
    have hstep : prepend elems o objs = some (v :: elems, objs) := by
      show (lookup o objs).bind _ = _
      rw [lookup_eq ho]
      rfl
    rw [List.foldlM_cons]
    show (prepend elems o objs).bind _ = _
    rw [hstep, List.reverse_cons, List.append_assoc]
    exact ih (v :: elems)

theorem prependVector_builds {os : List Offset} {vs : List Value} {n : Nat} (h : StoredAll objs os vs)
    (hn : os.length = n) :
    Builds (prependVector n os) objs fun o objs' => Stored objs' o (.vector vs.reverse) := by
  have hloop : Builds (os.foldlM prepend []) objs fun elems _ => elems = vs.reverse := by
    rw [← List.append_nil vs.reverse]
    exact .of_eq (foldlM_prepend h [])
  refine hloop.bind fun elems objs₁ _ helems => ?_
  have hlen : elems.length = n := by
    rw [helems, List.length_reverse, ← h.length_eq, hn]
  rw [if_pos hlen, helems]
  exact store_builds objs₁ _

theorem createVector_builds {os : List Offset} {vs : List Value} (h : StoredAll objs os vs) :
    Builds (createVector os) objs fun o objs' => Stored objs' o (.vector vs) := by
  have hrev : StoredAll objs os.reverse vs.reverse := List.rel_reverse h
  have hb := prependVector_builds hrev List.length_reverse
  rw [List.reverse_reverse] at hb
  exact hb

/-- What an added field holds. -/
inductive Holds (objs : List Value) : Add → Nat × Option Value → Prop where
  | scalar {field : Nat} {type : ScalarType} {v : Int} (h : type.fits v = true) :
      Holds objs (.scalar field type v) (field, scalarField type v)
  | offset {field : Nat} {o : Offset} {v : Value} (h : Stored objs o v) :
      Holds objs (.offset field o) (field, some v)

def setField (fields : List (Option Value)) (content : Nat × Option Value) : List (Option Value) :=
  fields.set content.1 content.2

theorem addField_eq {a : Add} {content : Nat × Option Value} (h : Holds objs a content)
    (fields : List (Option Value)) : addField fields a objs = some (setField fields content, objs) := by
  cases h with
  | scalar h =>
    rw [addField, if_pos h]
    rfl
  | offset h =>
    show (lookup _ objs).bind _ = _
    rw [lookup_eq h]
    rfl

theorem createTable_builds {adds : List Add} {contents : List (Nat × Option Value)}
    (h : List.Forall₂ (Holds objs) adds contents) (n : Nat) :
    Builds (createTable n adds) objs fun o objs' =>
      Stored objs' o (.table (contents.foldl setField (List.replicate n none))) := by
  have hfold : ∀ fields, adds.foldlM addField fields objs = some (contents.foldl setField fields, objs) := by
    induction h with
    | nil => exact fun _ => rfl
    | cons ha _ ih =>
      intro fields
      rw [List.foldlM_cons]
      show (addField fields _ objs).bind _ = _
      rw [addField_eq ha]
      exact ih _
  refine (Builds.of_eq (hfold (List.replicate n none))).bind fun fields objs₁ _ hfields => ?_
  subst hfields
  exact store_builds objs₁ _

end FlatBuffers
