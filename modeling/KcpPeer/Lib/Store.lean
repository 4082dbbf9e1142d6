import Mathlib.Data.List.AList

set_option autoImplicit false

/-- Shared objects and a map that names some of them. Objects are never freed:
an object's identity is its position in allocation order, and a handle stays
valid after the map has forgotten the object. -/
structure Store (κ α : Type) [DecidableEq κ] where
  objects : List α
  index : AList (fun _ : κ => Nat)
  valid : ∀ key id, index.lookup key = some id → id < objects.length
  injective : ∀ key key' id, index.lookup key = some id → index.lookup key' = some id → key = key'

namespace Store

variable {κ α β : Type} [DecidableEq κ]

def empty : Store κ α where
  objects := []
  index := ∅
  valid := by simp
  injective := by simp

/-- The object the map holds under a key. -/
def lookup (store : Store κ α) (key : κ) : Option Nat := store.index.lookup key

/-- The current contents of an object. -/
def object? (store : Store κ α) (id : Nat) : Option α := store.objects[id]?

/-- The identity a new object gets. -/
def fresh (store : Store κ α) : Nat := store.objects.length

def find (store : Store κ α) (key : κ) : Option (Nat × α) :=
  (store.lookup key).bind fun id => (store.object? id).map fun object => (id, object)

def modify (store : Store κ α) (id : Nat) (f : α → α) : Store κ α where
  objects := store.objects.modify id f
  index := store.index
  valid := by simpa only [List.length_modify] using store.valid
  injective := store.injective

private theorem lookup_insert_cases (store : Store κ α) {key key' : κ} {id : Nat}
    (found : (store.index.insert key store.objects.length).lookup key' = some id) :
    (key' = key ∧ id = store.objects.length) ∨
      (key' ≠ key ∧ store.index.lookup key' = some id) := by
  by_cases same : key' = key
  · subst same
    rw [AList.lookup_insert] at found
    exact Or.inl ⟨rfl, (Option.some.inj found).symm⟩
  · rw [AList.lookup_insert_ne same] at found
    exact Or.inr ⟨same, found⟩

/-- Allocates an object and maps the key to it, replacing what the key held. -/
def insertNew (store : Store κ α) (key : κ) (object : α) : Store κ α where
  objects := store.objects ++ [object]
  index := store.index.insert key store.objects.length
  valid := by
    intro key' id found
    simp only [List.length_append, List.length_singleton]
    rcases lookup_insert_cases store found with ⟨_, rfl⟩ | ⟨_, old⟩
    · omega
    · have := store.valid _ _ old
      omega
  injective := by
    intro left right id foundLeft foundRight
    rcases lookup_insert_cases store foundLeft with ⟨rfl, rfl⟩ | ⟨_, oldLeft⟩ <;>
      rcases lookup_insert_cases store foundRight with ⟨rfl, same⟩ | ⟨_, oldRight⟩
    · rfl
    · have := store.valid _ _ oldRight
      omega
    · have := store.valid _ _ oldLeft
      omega
    · exact store.injective _ _ _ oldLeft oldRight

private theorem lookup_erase_some (store : Store κ α) {key key' : κ} {id : Nat}
    (found : (store.index.erase key).lookup key' = some id) :
    store.index.lookup key' = some id := by
  by_cases same : key' = key
  · subst same
    rw [AList.lookup_erase] at found
    cases found
  · rwa [AList.lookup_erase_ne same] at found

/-- Forgets the key; the object stays reachable through its handles. -/
def remove (store : Store κ α) (key : κ) : Store κ α where
  objects := store.objects
  index := store.index.erase key
  valid := fun key' id found => store.valid key' id (lookup_erase_some store found)
  injective := fun left right id foundLeft foundRight =>
    store.injective left right id (lookup_erase_some store foundLeft)
      (lookup_erase_some store foundRight)

def keys (store : Store κ α) : List κ := store.index.keys

theorem lookup_lt {store : Store κ α} {key : κ} {id : Nat}
    (found : store.lookup key = some id) : id < store.fresh :=
  store.valid key id found

theorem lookup_injective {store : Store κ α} {left right : κ} {id : Nat}
    (foundLeft : store.lookup left = some id) (foundRight : store.lookup right = some id) :
    left = right :=
  store.injective left right id foundLeft foundRight

theorem mem_keys_iff {store : Store κ α} {key : κ} :
    key ∈ store.keys ↔ ∃ id, store.lookup key = some id := by
  change key ∈ store.index ↔ _
  rw [← AList.lookup_isSome, Option.isSome_iff_exists]
  rfl

theorem keys_nodup (store : Store κ α) : store.keys.Nodup := store.index.keys_nodup

@[simp] theorem keys_modify (store : Store κ α) (id : Nat) (f : α → α) :
    (store.modify id f).keys = store.keys := rfl

theorem length_keys_insertNew_le (store : Store κ α) (key : κ) (object : α) :
    (store.insertNew key object).keys.length ≤ store.keys.length + 1 := by
  change (store.index.insert key store.objects.length).keys.length ≤ _
  rw [AList.keys_insert, List.length_cons]
  exact Nat.add_le_add_right List.length_erase_le 1

theorem length_keys_remove_le (store : Store κ α) (key : κ) :
    (store.remove key).keys.length ≤ store.keys.length := by
  change (store.index.erase key).keys.length ≤ _
  rw [AList.keys_erase]
  exact List.length_erase_le

@[simp] theorem object?_empty (id : Nat) : (empty : Store κ α).object? id = none := rfl

@[simp] theorem find_empty (key : κ) : (empty : Store κ α).find key = none := rfl

@[simp] theorem lookup_modify (store : Store κ α) (id : Nat) (f : α → α) (key : κ) :
    (store.modify id f).lookup key = store.lookup key := rfl

@[simp] theorem fresh_modify (store : Store κ α) (id : Nat) (f : α → α) :
    (store.modify id f).fresh = store.fresh := by
  simp only [fresh, modify, List.length_modify]

@[simp] theorem fresh_remove (store : Store κ α) (key : κ) :
    (store.remove key).fresh = store.fresh := rfl

@[simp] theorem fresh_insertNew (store : Store κ α) (key : κ) (object : α) :
    (store.insertNew key object).fresh = store.fresh + 1 := by
  simp only [fresh, insertNew, List.length_append, List.length_singleton]

@[simp] theorem object?_remove (store : Store κ α) (key : κ) (id : Nat) :
    (store.remove key).object? id = store.object? id := rfl

theorem object?_modify (store : Store κ α) (id id' : Nat) (f : α → α) :
    (store.modify id f).object? id' =
      if id = id' then (store.object? id').map f else store.object? id' := by
  simp only [object?, modify, List.getElem?_modify]
  split <;> simp

@[simp] theorem object?_modify_self (store : Store κ α) (id : Nat) (f : α → α) :
    (store.modify id f).object? id = (store.object? id).map f := by
  simp only [object?_modify, ↓reduceIte]

theorem object?_modify_ne (store : Store κ α) {id id' : Nat} (f : α → α) (other : id ≠ id') :
    (store.modify id f).object? id' = store.object? id' := by
  simp only [object?_modify, other, ↓reduceIte]

theorem object?_insertNew (store : Store κ α) (key : κ) (object : α) (id : Nat) :
    (store.insertNew key object).object? id =
      if id = store.fresh then some object else store.object? id := by
  simp only [object?, insertNew, fresh]
  by_cases same : id = store.objects.length
  · simp only [same, List.getElem?_append_right (Nat.le_refl _), Nat.sub_self,
      List.getElem?_cons_zero, ↓reduceIte]
  · simp only [same, ↓reduceIte]
    rcases Nat.lt_or_gt_of_ne same with below | above
    · rw [List.getElem?_append_left below]
    · rw [List.getElem?_eq_none (by simp only [List.length_append, List.length_singleton]; omega),
        List.getElem?_eq_none (by omega)]

theorem lookup_insertNew (store : Store κ α) (key key' : κ) (object : α) :
    (store.insertNew key object).lookup key' =
      if key' = key then some store.fresh else store.lookup key' := by
  split
  · rename_i same
    subst same
    exact AList.lookup_insert _
  · rename_i other
    exact AList.lookup_insert_ne other

theorem lookup_remove (store : Store κ α) (key key' : κ) :
    (store.remove key).lookup key' = if key' = key then none else store.lookup key' := by
  split
  · rename_i same
    subst same
    exact AList.lookup_erase _ _
  · rename_i other
    exact AList.lookup_erase_ne other

/-- Taking one object's key away leaves the other objects theirs. -/
theorem lookup_remove_other {store : Store κ α} {key key' : κ} {id id' : Nat}
    (named : store.lookup key = some id) (named' : store.lookup key' = some id')
    (other : id' ≠ id) : (store.remove key).lookup key' = some id' := by
  rw [lookup_remove, if_neg]
  · exact named'
  · rintro rfl
    exact other (Option.some.inj (named'.symm.trans named))

/-- A store is its objects and its map. -/
theorem ext {left right : Store κ α} (objects : left.objects = right.objects)
    (index : left.index = right.index) : left = right := by
  obtain ⟨leftObjects, leftIndex, _, _⟩ := left
  obtain ⟨rightObjects, rightIndex, _, _⟩ := right
  simp only at objects index
  subst objects index
  rfl

/-- Forgetting a key that names nothing changes nothing. -/
theorem remove_absent (store : Store κ α) {key : κ} (absent : store.lookup key = none) :
    store.remove key = store := by
  refine Store.ext rfl ?_
  exact AList.ext (List.kerase_of_notMem_keys (AList.lookup_eq_none.mp absent))

/-- Forgetting a key before it is given a new object makes no difference. -/
theorem insertNew_remove (store : Store κ α) (key : κ) (object : α) :
    (store.remove key).insertNew key object = store.insertNew key object := by
  refine Store.ext rfl (AList.ext ?_)
  change List.kinsert key _ (List.kerase key store.index.entries) =
    List.kinsert key _ store.index.entries
  have erased := List.kerase_of_notMem_keys
    (List.notMem_keys_kerase key store.index.nodupKeys)
  rw [List.kinsert_def, List.kinsert_def, erased]
  rfl

theorem object?_lt {store : Store κ α} {id : Nat} {object : α}
    (present : store.object? id = some object) : id < store.fresh := by
  simp only [object?] at present
  exact (List.getElem?_eq_some_iff.mp present).1

theorem object?_of_lt {store : Store κ α} {id : Nat} (below : id < store.fresh) :
    ∃ object, store.object? id = some object :=
  ⟨_, List.getElem?_eq_getElem below⟩

/-- Finding a key is looking up its object and reading that object. -/
theorem find_eq_some {store : Store κ α} {key : κ} {id : Nat} {object : α} :
    store.find key = some (id, object) ↔
      store.lookup key = some id ∧ store.object? id = some object := by
  simp only [find, Option.bind_eq_some_iff, Option.map_eq_some_iff, Prod.mk.injEq]
  constructor
  · rintro ⟨id', found, object', present, rfl, rfl⟩
    exact ⟨found, present⟩
  · rintro ⟨found, present⟩
    exact ⟨id, found, object, present, rfl, rfl⟩

@[simp] theorem find_eq_none {store : Store κ α} {key : κ} :
    store.find key = none ↔ store.lookup key = none := by
  cases found : store.lookup key with
  | none => simp only [find, found, Option.bind_none]
  | some id =>
      obtain ⟨object, present⟩ := object?_of_lt (lookup_lt found)
      simp only [find, found, present, Option.bind_some, Option.map_some, reduceCtorEq]

theorem find_of_lookup {store : Store κ α} {key : κ} {id : Nat}
    (found : store.lookup key = some id) : ∃ object, store.find key = some (id, object) := by
  obtain ⟨object, present⟩ := object?_of_lt (lookup_lt found)
  exact ⟨object, find_eq_some.mpr ⟨found, present⟩⟩

theorem find_congr {store store' : Store κ α} {key : κ}
    (index : store'.lookup key = store.lookup key)
    (objects : ∀ id, store.lookup key = some id → store'.object? id = store.object? id) :
    store'.find key = store.find key := by
  simp only [find, index]
  cases found : store.lookup key with
  | none => rfl
  | some id => simp only [Option.bind_some, objects id found]

theorem find_insertNew (store : Store κ α) (key key' : κ) (object : α) :
    (store.insertNew key object).find key' =
      if key' = key then some (store.fresh, object) else store.find key' := by
  split
  · rename_i same
    rw [find_eq_some, lookup_insertNew, object?_insertNew]
    simp only [same, ↓reduceIte, and_self]
  · rename_i other
    apply find_congr
    · rw [lookup_insertNew]
      simp only [other, ↓reduceIte]
    · intro id found
      have below := lookup_lt found
      rw [object?_insertNew]
      simp only [show id ≠ store.fresh by omega, ↓reduceIte]

theorem find_remove (store : Store κ α) (key key' : κ) :
    (store.remove key).find key' = if key' = key then none else store.find key' := by
  split
  · rename_i same
    rw [find_eq_none, lookup_remove]
    simp only [same, ↓reduceIte]
  · rename_i other
    apply find_congr
    · rw [lookup_remove]
      simp only [other, ↓reduceIte]
    · intro id _
      rfl

/-- Writing an object is seen under its own key only. -/
theorem find_modify (store : Store κ α) {key : κ} {id : Nat} {object : α} (key' : κ) (f : α → α)
    (found : store.find key = some (id, object)) :
    (store.modify id f).find key' =
      if key' = key then some (id, f object) else store.find key' := by
  obtain ⟨indexed, present⟩ := find_eq_some.mp found
  split
  · rename_i same
    rw [find_eq_some, object?_modify_self, present, lookup_modify, same]
    exact ⟨indexed, rfl⟩
  · rename_i other
    apply find_congr
    · rfl
    · intro id' found'
      apply object?_modify_ne
      rintro rfl
      exact other (lookup_injective found' indexed)

/-- An object the map does not name is written unseen. -/
theorem find_modify_unnamed (store : Store κ α) {id : Nat} (key : κ) (f : α → α)
    (unnamed : store.lookup key ≠ some id) : (store.modify id f).find key = store.find key := by
  apply find_congr
  · rfl
  · intro id' found'
    apply object?_modify_ne
    rintro rfl
    exact unnamed found'

/-- What an observer of every object's contents sees of the store. -/
def map (store : Store κ α) (g : α → β) : Store κ β where
  objects := store.objects.map g
  index := store.index
  valid := by simpa only [List.length_map] using store.valid
  injective := store.injective

@[simp] theorem lookup_map (store : Store κ α) (g : α → β) (key : κ) :
    (store.map g).lookup key = store.lookup key := rfl

@[simp] theorem fresh_map (store : Store κ α) (g : α → β) : (store.map g).fresh = store.fresh := by
  simp only [fresh, map, List.length_map]

@[simp] theorem object?_map (store : Store κ α) (g : α → β) (id : Nat) :
    (store.map g).object? id = (store.object? id).map g := by
  simp only [object?, map, List.getElem?_map]

@[simp] theorem map_remove (store : Store κ α) (g : α → β) (key : κ) :
    (store.remove key).map g = (store.map g).remove key := rfl

@[simp] theorem map_insertNew (store : Store κ α) (g : α → β) (key : κ) (object : α) :
    (store.insertNew key object).map g = (store.map g).insertNew key (g object) := by
  apply Store.ext
  · simp only [map, insertNew, List.map_append, List.map_cons, List.map_nil]
  · simp only [map, insertNew, List.length_map]

theorem map_modify (store : Store κ α) (g : α → β) (id : Nat) (f : α → α) (f' : β → β)
    (commutes : ∀ object, g (f object) = f' (g object)) :
    (store.modify id f).map g = (store.map g).modify id f' := by
  refine Store.ext (List.ext_getElem? fun i => ?_) rfl
  change ((store.modify id f).map g).object? i = ((store.map g).modify id f').object? i
  simp only [object?_map, object?_modify]
  by_cases same : id = i
  · cases store.object? i <;> simp [same, commutes]
  · simp only [same, ↓reduceIte]

/-- Writing back what an object already holds changes nothing. -/
theorem modify_same (store : Store κ α) {id : Nat} {object : α} (f : α → α)
    (present : store.object? id = some object) (unchanged : f object = object) :
    store.modify id f = store := by
  refine Store.ext (List.ext_getElem? fun i => ?_) rfl
  change (store.modify id f).object? i = store.object? i
  by_cases same : id = i
  · subst same
    rw [object?_modify_self, present, Option.map_some, unchanged]
  · exact object?_modify_ne store f same

theorem modify_comm (store : Store κ α) {id id' : Nat} (f f' : α → α) (other : id ≠ id') :
    (store.modify id f).modify id' f' = (store.modify id' f').modify id f :=
  Store.ext (List.modify_modify_ne f f' store.objects other) rfl

theorem remove_comm (store : Store κ α) (key key' : κ) :
    (store.remove key).remove key' = (store.remove key').remove key :=
  Store.ext rfl (AList.erase_erase key key' store.index)

theorem find_map (store : Store κ α) (g : α → β) (key : κ) :
    (store.map g).find key = (store.find key).map fun found => (found.1, g found.2) := by
  cases found : store.find key with
  | none => simpa using found
  | some found' =>
      obtain ⟨id, object⟩ := found'
      obtain ⟨found, present⟩ := find_eq_some.mp found
      rw [Option.map_some, find_eq_some]
      exact ⟨found, by rw [object?_map, present, Option.map_some]⟩

end Store
