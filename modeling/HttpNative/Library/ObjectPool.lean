import Mathlib.Logic.Function.Basic

/-!
# Pools of recycled objects

Objects are numbered in the order of their allocation. A pool keeps a stack of
free numbers: acquiring takes the one released last, or allocates, and
releasing gives an object back unless the stack is full. Holders lease
objects; the leases stay exclusive as long as an object is given back only
when its holder lets go of it.
-/

namespace HttpNative

structure ObjectPool (Object : Type) where
  free : List Nat
  allocated : Nat
  objects : Nat → Object

namespace ObjectPool

variable {Object Holder : Type}

/-- No object has been allocated. -/
def empty (unused : Object) : ObjectPool Object where
  free := []
  allocated := 0
  objects := fun _ => unused

/-- The number that is acquired next. -/
def nextId (pool : ObjectPool Object) : Nat :=
  pool.free.headD pool.allocated

/-- What is recycled by the next acquisition, if anything. -/
def recycled (pool : ObjectPool Object) : Option Object :=
  pool.free.head?.map pool.objects

/-- Take the object released last or a new one, and initialise it. -/
def acquire (pool : ObjectPool Object) (initialise : Option Object → Object) :
    ObjectPool Object where
  free := pool.free.tail
  allocated := if pool.free = [] then pool.allocated + 1 else pool.allocated
  objects := Function.update pool.objects pool.nextId (initialise pool.recycled)

def modify (pool : ObjectPool Object) (id : Nat) (change : Object → Object) :
    ObjectPool Object :=
  { pool with objects := Function.update pool.objects id (change (pool.objects id)) }

/-- Give an object back, unless `max` objects are free already. -/
def release (pool : ObjectPool Object) (max id : Nat) : ObjectPool Object :=
  if pool.free.length < max then
    { pool with free := id :: pool.free }
  else
    pool

@[simp] theorem modify_free (pool : ObjectPool Object) (id : Nat) (change : Object → Object) :
    (pool.modify id change).free = pool.free := rfl

@[simp] theorem modify_allocated
    (pool : ObjectPool Object) (id : Nat) (change : Object → Object) :
    (pool.modify id change).allocated = pool.allocated := rfl

@[simp] theorem modify_objects_self
    (pool : ObjectPool Object) (id : Nat) (change : Object → Object) :
    (pool.modify id change).objects id = change (pool.objects id) :=
  Function.update_self ..

theorem modify_objects_of_ne
    (pool : ObjectPool Object) {id other : Nat} (change : Object → Object)
    (differs : other ≠ id) :
    (pool.modify id change).objects other = pool.objects other :=
  Function.update_of_ne differs ..

@[simp] theorem release_objects (pool : ObjectPool Object) (max id : Nat) :
    (pool.release max id).objects = pool.objects := by
  unfold release
  split <;> rfl

@[simp] theorem release_allocated (pool : ObjectPool Object) (max id : Nat) :
    (pool.release max id).allocated = pool.allocated := by
  unfold release
  split <;> rfl

theorem mem_release_free
    {pool : ObjectPool Object} {max id other : Nat}
    (mem : other ∈ (pool.release max id).free) :
    (other = id ∧ pool.free.length < max) ∨ other ∈ pool.free := by
  unfold release at mem
  split at mem
  case isTrue hasRoom => exact (List.mem_cons.mp mem).imp_left fun same => ⟨same, hasRoom⟩
  case isFalse => exact .inr mem

@[simp] theorem acquire_objects_nextId
    (pool : ObjectPool Object) (initialise : Option Object → Object) :
    (pool.acquire initialise).objects pool.nextId = initialise pool.recycled :=
  Function.update_self ..

theorem acquire_objects_of_ne
    (pool : ObjectPool Object) (initialise : Option Object → Object) {id : Nat}
    (differs : id ≠ pool.nextId) :
    (pool.acquire initialise).objects id = pool.objects id :=
  Function.update_of_ne differs ..

/-! ## Clean objects -/

/-- Every free object has a property. -/
def FreeAll (pool : ObjectPool Object) (clean : Object → Prop) : Prop :=
  ∀ id ∈ pool.free, clean (pool.objects id)

variable {pool : ObjectPool Object} {clean : Object → Prop}

/-- When the initialisation hides what a clean object was used for, recycling
is not observable. -/
theorem FreeAll.initialise_recycled
    (freeAll : pool.FreeAll clean)
    {initialise : Option Object → Object}
    (hides : ∀ object, clean object → initialise (some object) = initialise none) :
    initialise pool.recycled = initialise none := by
  unfold recycled
  cases freeEq : pool.free with
  | nil => rfl
  | cons id rest => exact hides _ (freeAll id (freeEq ▸ List.mem_cons_self))

/-- A stack without repetitions does not keep what is acquired. -/
theorem nextId_not_mem_tail (nodup : pool.free.Nodup) : pool.nextId ∉ pool.free.tail := by
  unfold nextId
  cases freeEq : pool.free with
  | nil => simp
  | cons first rest => exact (List.nodup_cons.mp (freeEq ▸ nodup)).1

theorem FreeAll.acquire
    (freeAll : pool.FreeAll clean) (nodup : pool.free.Nodup)
    (initialise : Option Object → Object) :
    (pool.acquire initialise).FreeAll clean := by
  intro id mem
  have differs : id ≠ pool.nextId := fun same => nextId_not_mem_tail nodup (same ▸ mem)
  rw [acquire_objects_of_ne pool initialise differs]
  exact freeAll id (List.mem_of_mem_tail mem)

theorem freeAll_empty (unused : Object) : (empty unused).FreeAll clean :=
  nofun

/-- Changes of a free object must keep it clean. -/
theorem FreeAll.modify
    (freeAll : pool.FreeAll clean) {id : Nat} {change : Object → Object}
    (keeps : id ∈ pool.free → clean (pool.objects id) → clean (change (pool.objects id))) :
    (pool.modify id change).FreeAll clean := by
  intro other mem
  obtain rfl | differs := eq_or_ne other id
  · rw [modify_objects_self]
    exact keeps mem (freeAll other mem)
  · rw [modify_objects_of_ne pool change differs]
    exact freeAll other mem

theorem FreeAll.release
    (freeAll : pool.FreeAll clean) {max id : Nat}
    (isClean : pool.free.length < max → clean (pool.objects id)) :
    (pool.release max id).FreeAll clean := by
  intro other mem
  rw [release_objects]
  obtain ⟨rfl, hasRoom⟩ | mem := mem_release_free mem
  · exact isClean hasRoom
  · exact freeAll other mem

/-! ## Leases -/

/-- Free objects exist and are listed once, and what a holder leases is
neither free nor leased to another one. -/
structure Leased (pool : ObjectPool Object) (lease : Holder → Option Nat) : Prop where
  freeNodup : pool.free.Nodup
  freeExists : ∀ id ∈ pool.free, id < pool.allocated
  leasedExists : ∀ holder id, lease holder = some id → id < pool.allocated
  notFree : ∀ holder id, lease holder = some id → id ∉ pool.free
  exclusive : ∀ left right id, lease left = some id → lease right = some id → left = right

variable {lease other : Holder → Option Nat}

theorem leased_empty (unused : Object) :
    (empty unused).Leased fun _ : Holder => none where
  freeNodup := List.nodup_nil
  freeExists := nofun
  leasedExists := nofun
  notFree := nofun
  exclusive := nofun

/-- Holders may let go of their objects. -/
theorem Leased.mono
    (leased : pool.Leased lease)
    (fewer : ∀ holder id, other holder = some id → lease holder = some id) :
    pool.Leased other where
  freeNodup := leased.freeNodup
  freeExists := leased.freeExists
  leasedExists := fun holder id held => leased.leasedExists holder id (fewer _ _ held)
  notFree := fun holder id held => leased.notFree holder id (fewer _ _ held)
  exclusive := fun left right id heldLeft heldRight =>
    leased.exclusive left right id (fewer _ _ heldLeft) (fewer _ _ heldRight)

theorem Leased.modify
    (leased : pool.Leased lease) (id : Nat) (change : Object → Object) :
    (pool.modify id change).Leased lease where
  freeNodup := leased.freeNodup
  freeExists := leased.freeExists
  leasedExists := leased.leasedExists
  notFree := leased.notFree
  exclusive := leased.exclusive

/-- What is acquired next is not leased. -/
theorem Leased.ne_nextId
    (leased : pool.Leased lease) {holder : Holder} {id : Nat}
    (held : lease holder = some id) :
    id ≠ pool.nextId := by
  have exists_ := leased.leasedExists holder id held
  have notFree := leased.notFree holder id held
  unfold nextId
  cases freeEq : pool.free with
  | nil => exact Nat.ne_of_lt exists_
  | cons first rest =>
      rintro rfl
      exact notFree (freeEq ▸ List.mem_cons_self)

/-- A new holder of the acquired object. -/
theorem Leased.acquire [DecidableEq Holder]
    (leased : pool.Leased lease)
    (initialise : Option Object → Object)
    (newcomer : Holder) :
    (pool.acquire initialise).Leased (Function.update lease newcomer (some pool.nextId)) := by
  have nextFresh := nextId_not_mem_tail leased.freeNodup
  have nextExists : pool.nextId < (pool.acquire initialise).allocated := by
    have freeExists := leased.freeExists
    unfold nextId ObjectPool.acquire
    cases freeEq : pool.free with
    | nil => simp
    | cons first rest =>
        simpa using freeExists first (freeEq ▸ List.mem_cons_self)
  have grows : pool.allocated ≤ (pool.acquire initialise).allocated := by
    unfold ObjectPool.acquire
    dsimp only
    split <;> omega
  have cases : ∀ holder id,
      Function.update lease newcomer (some pool.nextId) holder = some id →
      (holder = newcomer ∧ id = pool.nextId) ∨ (holder ≠ newcomer ∧ lease holder = some id) := by
    intro holder id held
    rw [Function.update_apply] at held
    split at held
    case isTrue same => exact .inl ⟨same, (Option.some.inj held).symm⟩
    case isFalse differs => exact .inr ⟨differs, held⟩
  exact
    { freeNodup := leased.freeNodup.sublist (List.tail_sublist _)
      freeExists := fun id mem =>
        Nat.lt_of_lt_of_le (leased.freeExists id (List.mem_of_mem_tail mem)) grows
      leasedExists := by
        intro holder id held
        obtain ⟨-, rfl⟩ | ⟨-, held⟩ := cases holder id held
        · exact nextExists
        · exact Nat.lt_of_lt_of_le (leased.leasedExists holder id held) grows
      notFree := by
        intro holder id held
        obtain ⟨-, rfl⟩ | ⟨-, held⟩ := cases holder id held
        · exact nextFresh
        · exact fun mem => leased.notFree holder id held (List.mem_of_mem_tail mem)
      exclusive := by
        intro left right id heldLeft heldRight
        obtain ⟨rfl, rfl⟩ | ⟨-, heldLeft⟩ := cases left id heldLeft
        · obtain ⟨rfl, -⟩ | ⟨-, heldRight⟩ := cases right _ heldRight
          · rfl
          · exact absurd rfl (leased.ne_nextId heldRight)
        · obtain ⟨-, rfl⟩ | ⟨-, heldRight⟩ := cases right _ heldRight
          · exact absurd rfl (leased.ne_nextId heldLeft)
          · exact leased.exclusive left right id heldLeft heldRight }

/-- Giving back an object that its holder lets go of. A full pool does not
take it, and then the holder may keep it. -/
theorem Leased.release
    (leased : pool.Leased lease) {holder : Holder} {id max : Nat}
    (held : lease holder = some id)
    (fewer : ∀ holder id, other holder = some id → lease holder = some id)
    (letsGo : pool.free.length < max → other holder = none) :
    (pool.release max id).Leased other := by
  have dropped : pool.Leased other := leased.mono fewer
  unfold ObjectPool.release
  split
  case isFalse => exact dropped
  case isTrue hasRoom =>
    exact
      { freeNodup := List.nodup_cons.mpr ⟨leased.notFree holder id held, leased.freeNodup⟩
        freeExists := by
          intro freed mem
          obtain rfl | mem := List.mem_cons.mp mem
          · exact leased.leasedExists holder freed held
          · exact leased.freeExists freed mem
        leasedExists := dropped.leasedExists
        notFree := by
          intro one kept keeps mem
          obtain rfl | mem := List.mem_cons.mp mem
          · have same := leased.exclusive one holder kept (fewer one kept keeps) held
            rw [same, letsGo hasRoom] at keeps
            cases keeps
          · exact dropped.notFree one kept keeps mem
        exclusive := dropped.exclusive }

end ObjectPool

end HttpNative
