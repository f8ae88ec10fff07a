import Scriptling.Syntax.Data

/-!
# Members in any order

The members of an object go by their names, and their order says nothing. So two values are the
same data if one becomes the other when members of different names change places, in objects at any
depth (`Json.Reordered`).

What a function makes of a value is *free of the order* if it is the same for all values that are
the same data (`Json.OrderFree`). Looking up a member is (`Json.OrderFree.get?`), and with it all
that is done to members that were looked up, to the items of a list, and to the only member of an
object: if it is free of the order for a part, then it is so for the whole.
-/

namespace Scriptling.Json

/-- The second value is the first one with members of different names at other places. -/
inductive Reordered : Json → Json → Prop
  /-- nothing changes -/
  | refl (j : Json) : Reordered j j
  /-- one change after another -/
  | trans {i j k : Json} : Reordered i j → Reordered j k → Reordered i k
  /-- two neighbours change places -/
  | swap (before : List (String × Json)) {m n : String × Json} (behind : List (String × Json)) :
      m.1 ≠ n.1 → Reordered (obj (before ++ m :: n :: behind)) (obj (before ++ n :: m :: behind))
  /-- an item of a list changes -/
  | item (before : List Json) {j k : Json} (behind : List Json) :
      Reordered j k → Reordered (arr (before ++ j :: behind)) (arr (before ++ k :: behind))
  /-- a member of an object changes -/
  | member (before : List (String × Json)) (key : String) {j k : Json}
      (behind : List (String × Json)) :
      Reordered j k →
      Reordered (obj (before ++ (key, j) :: behind)) (obj (before ++ (key, k) :: behind))

/-- The function does not tell values apart that are the same data. -/
def OrderFree {α : Type} (f : Json → α) : Prop :=
  ∀ ⦃j k : Json⦄, Reordered j k → f j = f k

namespace OrderFree

variable {α β : Type}

/-- **One change is enough.** What one change leaves the same is free of the order. -/
theorem of_steps {f : Json → α}
    (hswap : ∀ (before : List (String × Json)) (m n : String × Json)
      (behind : List (String × Json)), m.1 ≠ n.1 →
      f (obj (before ++ m :: n :: behind)) = f (obj (before ++ n :: m :: behind)))
    (hitem : ∀ (before : List Json) (j k : Json) (behind : List Json), Reordered j k →
      f j = f k → f (arr (before ++ j :: behind)) = f (arr (before ++ k :: behind)))
    (hmember : ∀ (before : List (String × Json)) (key : String) (j k : Json)
      (behind : List (String × Json)), Reordered j k → f j = f k →
      f (obj (before ++ (key, j) :: behind)) = f (obj (before ++ (key, k) :: behind))) :
    OrderFree f := by
  intro j k h
  induction h with
  | refl => rfl
  | trans _ _ ih₁ ih₂ => exact ih₁.trans ih₂
  | swap before behind hne => exact hswap before _ _ behind hne
  | item before behind h ih => exact hitem before _ _ behind h ih
  | member before key behind h ih => exact hmember before key _ _ behind h ih

/-- What is made of lists and of objects is all that matters. -/
theorem of_compound {f g : Json → α} (hg : OrderFree g) (harr : ∀ js, f (arr js) = g (arr js))
    (hobj : ∀ ms, f (obj ms) = g (obj ms)) : OrderFree f := by
  refine of_steps ?_ ?_ ?_
  · intro before m n behind hne
    rw [hobj, hobj, hg (.swap before behind hne)]
  · intro before j k behind h _
    rw [harr, harr, hg (.item before behind h)]
  · intro before key j k behind h _
    rw [hobj, hobj, hg (.member before key behind h)]

/-- The same for all values. -/
theorem const (a : α) : OrderFree fun _ => a := fun _ _ _ => rfl

theorem bind {f : Json → Option α} {g : α → Json → Option β} (hf : OrderFree f)
    (hg : ∀ a, OrderFree (g a)) : OrderFree fun j => (f j).bind fun a => g a j := by
  intro j k h
  have hgh : (fun a => g a j) = fun a => g a k := funext fun a => hg a h
  simp only [hf h, hgh]

theorem map {f : Json → Option α} (hf : OrderFree f) (g : α → β) :
    OrderFree fun j => (f j).map g := by
  intro j k h
  simp only [hf h]

/-! ## Lookups -/

/-- Neighbours of different names are found at each other's places as well. -/
theorem lookup_swap (key : String) (before : List (String × Json)) {m n : String × Json}
    (behind : List (String × Json)) (hne : m.1 ≠ n.1) :
    (before ++ m :: n :: behind).lookup key = (before ++ n :: m :: behind).lookup key := by
  obtain ⟨x, j⟩ := m
  obtain ⟨y, k⟩ := n
  simp only [List.lookup_append, List.lookup_cons]
  by_cases hx : key = x
  · have hy : (key == y) = false := by simpa [hx] using hne
    rw [hy]
  · have hx : (key == x) = false := by simpa using hx
    rw [hx]

/-- **Members are looked up** by their names. -/
theorem get? {g : Option Json → α} (hg : OrderFree fun j => g (some j)) (key : String) :
    OrderFree fun j => g (j.get? key) := by
  refine of_steps ?_ ?_ ?_
  · intro before m n behind hne
    simp only [Json.get?, lookup_swap key before behind hne]
  · intros
    rfl
  · intro before name j k behind h _
    simp only [Json.get?, List.lookup_append, List.lookup_cons]
    cases before.lookup key with
    | some _ => rfl
    | none =>
      cases key == name with
      | true => exact hg h
      | false => rfl

theorem member? {read? : Json → Option α} (h : OrderFree read?) (key : String) :
    OrderFree (Json.member? key read?) :=
  get? (g := (·.bind read?)) h key

/-- The only member of an object. -/
theorem variant? {g : Option (String × Json) → α}
    (hg : ∀ name, OrderFree fun j => g (some (name, j))) : OrderFree fun j => g j.variant? := by
  refine of_steps ?_ ?_ ?_
  · intro before m n behind _
    -- there are at least two members
    cases before with
    | nil => rfl
    | cons _ before => cases before <;> rfl
  · intros
    rfl
  · intro before name j k behind h _
    cases before with
    | cons _ before => cases before <;> rfl
    | nil =>
      cases behind with
      | cons _ _ => rfl
      | nil => exact hg name h

end OrderFree

/-! ## Reading -/

section

variable {α : Type}

/-- The items of a list, each of them read. -/
def items? (read? : Json → Option α) : Json → Option (List α)
  | arr items => items.mapM read?
  | _ => none

/-- A node as read from data, given how to read a kind without parts and one with parts. -/
def node? (plain? : Span → String → Option α) (parts? : Span → String → Json → Option α)
    (j : Json) : Option α := do
  let s ← j.member? "span" Span.ofJson?
  match ← j.get? "node" with
  | str name => plain? s name
  | node =>
    let (name, parts) ← node.variant?
    parts? s name parts

namespace OrderFree

theorem str? : OrderFree Json.str? :=
  of_compound (const none) (fun _ => rfl) fun _ => rfl

theorem bool? : OrderFree Json.bool? :=
  of_compound (const none) (fun _ => rfl) fun _ => rfl

theorem nat? : OrderFree Json.nat? :=
  of_compound (const none) (fun _ => rfl) fun _ => rfl

theorem int64? : OrderFree Json.int64? :=
  of_compound (const none) (fun _ => rfl) fun _ => rfl

theorem items? {read? : Json → Option α} (h : OrderFree read?) : OrderFree (Json.items? read?) := by
  refine of_steps ?_ ?_ ?_
  · intros
    rfl
  · intro before j k behind hjk _
    simp only [Json.items?, List.mapM_append, List.mapM_cons, h hjk]
  · intros
    rfl

theorem span : OrderFree Span.ofJson? :=
  (nat?.member? "start").bind fun _ => (nat?.member? "end").bind fun _ => const _

/-- **A node is read free of the order** if its parts are. -/
theorem node? (plain? : Span → String → Option α) {parts? : Span → String → Json → Option α}
    (h : ∀ s name, OrderFree (parts? s name)) : OrderFree (Json.node? plain? parts?) := by
  have hparts (s : Span) : OrderFree fun node =>
      node.variant?.bind fun (name, parts) => parts? s name parts :=
    variant? (g := (·.bind fun (name, parts) => parts? s name parts)) (h s)
  have hnode (s : Span) := of_compound (f := fun node => match node with
    | str name => plain? s name
    | node => node.variant?.bind fun (name, parts) => parts? s name parts) (hparts s)
    (fun _ => rfl) fun _ => rfl
  exact bind (span.member? "span") fun s => (hnode s).member? "node"

end OrderFree

end

/-! ## Height -/

theorem heightItems_append (js ks : List Json) :
    heightItems (js ++ ks) = max (heightItems js) (heightItems ks) := by
  induction js with
  | nil => simp [heightItems]
  | cons j js ih => simp [heightItems, ih, Nat.max_assoc]

theorem heightMembers_append (ms ns : List (String × Json)) :
    heightMembers (ms ++ ns) = max (heightMembers ms) (heightMembers ns) := by
  induction ms with
  | nil => simp [heightMembers]
  | cons m ms ih => simp [heightMembers, ih, Nat.max_assoc]

/-- The height of a value is free of the order. -/
theorem OrderFree.height : OrderFree Json.height := by
  refine of_steps ?_ ?_ ?_
  · intro before m n behind _
    simp only [Json.height, heightMembers_append, heightMembers, Nat.max_left_comm]
  · intro before j k behind _ ih
    simp only [Json.height, heightItems_append, heightItems, ih]
  · intro before key j k behind _ ih
    simp only [Json.height, heightMembers_append, heightMembers, ih]

/-- Values that are the same data are read within the same depth. -/
theorem OrderFree.within_height {α : Type} {read? : Nat → Json → Option α}
    (h : ∀ depth, OrderFree (read? depth)) : OrderFree fun j => read? j.height j := by
  intro j k hjk
  simp only [OrderFree.height hjk, h _ hjk]

end Scriptling.Json
