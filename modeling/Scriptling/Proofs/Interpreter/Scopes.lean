import Scriptling.Interpreter.Scopes

/-!
# Scopes as a stack of frames

The live frames are never empty: there is an innermost one (`Scopes.innermost`), which is
the only one ever written to, and there are those around it (`Scopes.outer`). Every
operation on scopes is described by what it does to these two, and by what it does to the
visible value of a name. The order in which bindings are listed is never changed.
-/

namespace Scriptling

/-- Binding a name in a frame leaves the other names alone. -/
theorem Frame.getElem?_insert (f : Frame) (x y : String) (v : Value) :
    (f.insert x v)[y]? = if x = y then some v else f[y]? := by
  simp [Std.TreeMap.getElem?_insert]

namespace Listing

/-- What is listed of a frame are its names. -/
theorem mem_keys_iff {l : Listing} {outer : Nat} {f : Frame} {x : String} :
    x ∈ l.keys outer f ↔ x ∈ f := by
  have hperm : (l.keys outer f).Perm (f.toList.map Prod.fst) := (l.perm outer f).map Prod.fst
  rw [hperm.mem_iff, Std.TreeMap.map_fst_toList_eq_keys, Std.TreeMap.mem_keys]

/-- What is listed of frames are the names of all of them. -/
theorem mem_flatten_rows_iff {l : Listing} {frames : List Frame} {x : String} :
    x ∈ (l.rows frames).flatten ↔ ∃ f ∈ frames, x ∈ f := by
  induction frames with
  | nil => simp [rows]
  | cons f outer ih => simp [rows, mem_keys_iff, ih]

end Listing

namespace Scopes

/-! ## The innermost frame and those around it -/

/-- The frame that is written to. -/
def innermost (s : Scopes) : Frame :=
  match s.locals with
  | [] => s.global
  | f :: _ => f

/-- The frames around the innermost one. -/
def outer (s : Scopes) : List Frame :=
  s.frames.tail

theorem frames_eq (s : Scopes) : s.frames = s.innermost :: s.outer := by
  obtain ⟨locals, global, listing⟩ := s
  cases locals <;> rfl

theorem depth_eq (s : Scopes) : s.depth = s.frames.length := by
  simp [depth, frames]

/-- Scopes are determined by their frames and the order these are listed in. -/
theorem frames_injective {s t : Scopes} (h : s.frames = t.frames)
    (hlisting : s.listing = t.listing) : s = t := by
  obtain ⟨locals, global, listing⟩ := s
  obtain ⟨locals', global', listing'⟩ := t
  obtain ⟨hlocals, hglobal⟩ := List.append_inj' h rfl
  obtain rfl : locals = locals' := hlocals
  obtain rfl : global = global' := List.singleton_inj.mp hglobal
  obtain rfl : listing = listing' := hlisting
  rfl

@[simp] theorem innermost_push (s : Scopes) : s.push.innermost = ∅ := rfl

@[simp] theorem outer_push (s : Scopes) : s.push.outer = s.frames := rfl

@[simp] theorem innermost_bind (s : Scopes) (x : String) (v : Value) :
    (s.bind x v).innermost = s.innermost.insert x v := by
  obtain ⟨locals, global, listing⟩ := s
  cases locals <;> rfl

@[simp] theorem outer_bind (s : Scopes) (x : String) (v : Value) :
    (s.bind x v).outer = s.outer := by
  obtain ⟨locals, global, listing⟩ := s
  cases locals <;> rfl

theorem frames_push (s : Scopes) : s.push.frames = ∅ :: s.frames := rfl

theorem frames_bind (s : Scopes) (x : String) (v : Value) :
    (s.bind x v).frames = s.innermost.insert x v :: s.outer := by
  rw [frames_eq, innermost_bind, outer_bind]

/-- A frame that is not the only one can be taken away. -/
theorem frames_pop {s : Scopes} (h : 1 < s.depth) : s.pop.frames = s.outer := by
  obtain ⟨locals, global, listing⟩ := s
  cases locals with
  | nil => exact absurd h (Nat.lt_irrefl 1)
  | cons f rest => rfl

theorem depth_push (s : Scopes) : s.push.depth = s.depth + 1 := rfl

theorem depth_bind (s : Scopes) (x : String) (v : Value) : (s.bind x v).depth = s.depth := by
  obtain ⟨locals, global, listing⟩ := s
  cases locals <;> rfl

/-- There is always one frame at least. -/
theorem depth_pop (s : Scopes) : s.pop.depth = max 1 (s.depth - 1) := by
  obtain ⟨locals, global, listing⟩ := s
  cases locals with
  | nil => rfl
  | cons f rest => exact (Nat.max_eq_right (Nat.le_add_left 1 rest.length)).symm

/-- Where the frames around the innermost one are all frames of `t`, there is something to
take away, and what is left is `t`. -/
theorem pop?_of_outer {s t : Scopes} (h : s.outer = t.frames) (hlisting : s.listing = t.listing) :
    s.pop? = some t := by
  obtain ⟨locals, global, listing⟩ := s
  cases locals with
  | nil =>
    rw [frames_eq t] at h
    cases h
  | cons f rest => exact congrArg some (frames_injective h hlisting)

theorem pop_of_outer {s t : Scopes} (h : s.outer = t.frames) (hlisting : s.listing = t.listing) :
    s.pop = t := by
  rw [pop, pop?_of_outer h hlisting, Option.getD_some]

@[simp] theorem listing_push (s : Scopes) : s.push.listing = s.listing := rfl

@[simp] theorem listing_pop (s : Scopes) : s.pop.listing = s.listing := by
  obtain ⟨locals, global, listing⟩ := s
  cases locals <;> rfl

@[simp] theorem listing_bind (s : Scopes) (x : String) (v : Value) :
    (s.bind x v).listing = s.listing := by
  obtain ⟨locals, global, listing⟩ := s
  cases locals <;> rfl

/-! ## Visible values -/

/-- The innermost frame is asked first. -/
theorem get?_eq (s : Scopes) (x : String) :
    s.get? x = s.innermost[x]?.or (s.outer.findSome? fun f => f[x]?) := by
  rw [get?, frames_eq, List.findSome?_cons]
  cases s.innermost[x]? <;> rfl

@[simp] theorem get?_push (s : Scopes) (x : String) : s.push.get? x = s.get? x := by
  rw [get?_eq, innermost_push, outer_push, Std.TreeMap.getElem?_emptyc, Option.none_or, get?]

/-- Binding a name makes its value visible and leaves the other names alone. -/
theorem get?_bind (s : Scopes) (x y : String) (v : Value) :
    (s.bind x v).get? y = if x = y then some v else s.get? y := by
  rw [get?_eq, get?_eq, innermost_bind, outer_bind, Frame.getElem?_insert]
  split <;> simp

/-- A value of the innermost frame is visible. -/
theorem get?_of_innermost {s : Scopes} {x : String} {v : Value}
    (h : s.innermost[x]? = some v) : s.get? x = some v := by
  rw [get?_eq, h, Option.some_or]

/-- A name occurs among the names of the frames if it is visible. -/
theorem mem_names_iff {s : Scopes} {x : String} : x ∈ s.names ↔ ∃ v, s.get? x = some v := by
  simp only [names, Listing.mem_flatten_rows_iff, get?, ← Option.isSome_iff_exists,
    List.findSome?_isSome_iff, Std.TreeMap.isSome_getElem?_iff_mem]

/-- A name is bound in some frame if it is visible. -/
theorem contains_iff {s : Scopes} {x : String} :
    s.contains x = true ↔ ∃ v, s.get? x = some v := by
  simp only [← mem_names_iff, contains, names, List.any_eq_true, Listing.mem_flatten_rows_iff,
    Std.TreeMap.contains_iff_mem]

/-! ## Bindings of any frame -/

/-- Some live frame binds the name to the value; the binding may be hidden. -/
def Binds (s : Scopes) (x : String) (v : Value) : Prop :=
  ∃ f ∈ s.frames, f[x]? = some v

/-- What is visible is bound. -/
theorem binds_of_get? {s : Scopes} {x : String} {v : Value} (h : s.get? x = some v) :
    s.Binds x v :=
  List.exists_of_findSome?_eq_some h

/-- A name that is bound is visible, perhaps with another value. -/
theorem Binds.exists_get? {s : Scopes} {x : String} {v : Value} (h : s.Binds x v) :
    ∃ w, s.get? x = some w := by
  obtain ⟨f, hf, hv⟩ := h
  rcases hget : s.get? x with _ | w
  · rw [List.findSome?_eq_none_iff.mp hget f hf] at hv
    cases hv
  · exact ⟨w, rfl⟩

theorem not_binds_empty (l : Listing) (x : String) (v : Value) : ¬ Binds (.empty l) x v := by
  rintro ⟨f, hf, hv⟩
  obtain rfl : f = ∅ := List.mem_singleton.mp hf
  rw [Std.TreeMap.getElem?_emptyc] at hv
  cases hv

/-- A new frame brings no binding. -/
theorem Binds.of_push {s : Scopes} {x : String} {v : Value} (h : s.push.Binds x v) :
    s.Binds x v := by
  obtain ⟨f, hf, hv⟩ := h
  rcases List.mem_cons.mp hf with rfl | hf
  · rw [Std.TreeMap.getElem?_emptyc] at hv
    cases hv
  · exact ⟨f, hf, hv⟩

/-- Taking a frame away brings no binding. -/
theorem Binds.of_pop {s : Scopes} {x : String} {v : Value} (h : s.pop.Binds x v) :
    s.Binds x v := by
  obtain ⟨f, hf, hv⟩ := h
  obtain ⟨locals, global, listing⟩ := s
  cases locals with
  | nil => exact ⟨f, hf, hv⟩
  | cons g rest => exact ⟨f, List.mem_cons_of_mem g hf, hv⟩

/-- Binding a name brings this one binding. -/
theorem Binds.of_bind {s : Scopes} {x y : String} {v w : Value} (h : (s.bind x v).Binds y w) :
    x = y ∧ v = w ∨ s.Binds y w := by
  obtain ⟨f, hf, hw⟩ := h
  rw [frames_eq, innermost_bind, outer_bind] at hf
  rw [Binds, frames_eq]
  rcases List.mem_cons.mp hf with rfl | hf
  · rw [Frame.getElem?_insert] at hw
    split at hw
    · next hxy => exact Or.inl ⟨hxy, Option.some.inj hw⟩
    · exact Or.inr ⟨s.innermost, List.mem_cons_self, hw⟩
  · exact Or.inr ⟨f, List.mem_cons_of_mem _ hf, hw⟩

/-! ## Global bindings -/

/-- Sorting the global bindings by name undoes whatever order they were listed in. -/
theorem globals_eq (s : Scopes) : s.globals = s.global.toList := by
  have hperm : s.globals.Perm s.global.toList :=
    (List.mergeSort_perm _ _).trans (s.listing.perm 0 s.global)
  have hsorted : s.globals.Pairwise fun a b => a.1 ≤ b.1 := by
    refine (List.pairwise_mergeSort (fun a b c hab hbc => ?_) (fun a b => ?_) _).imp
      of_decide_eq_true
    · simp only [decide_eq_true_eq] at hab hbc ⊢
      exact String.le_trans hab hbc
    · simpa using String.le_total a.1 b.1
  have hordered : s.global.toList.Pairwise fun a b => a.1 < b.1 := by
    refine Std.TreeMap.ordered_keys_toList.imp fun {a b} h => ?_
    exact compareOfLessAndEq_eq_lt.mp h
  refine hperm.eq_of_pairwise ?_ hsorted
    (hordered.imp fun h => String.not_lt.mp (String.lt_asymm h))
  -- two bindings of one name are the same binding
  rintro ⟨x, v⟩ ⟨y, w⟩ hv hw hxy hyx
  obtain rfl : x = y := String.le_antisymm hxy hyx
  have hv : s.global[x]? = some v :=
    Std.TreeMap.mem_toList_iff_getElem?_eq_some.mp (hperm.mem_iff.mp hv)
  have hw : s.global[x]? = some w := Std.TreeMap.mem_toList_iff_getElem?_eq_some.mp hw
  rw [Option.some.inj (hv.symm.trans hw)]

/-! ## Assignment -/

/-- An assignment succeeds if the name is not visible with another kind, and binds the name
in the innermost frame. -/
theorem assign_eq_ok_iff {s t : Scopes} {x : String} {v : Value} :
    s.assign x v = .ok t ↔ t = s.bind x v ∧ ∀ w, s.get? x = some w → w.kind = v.kind := by
  rw [assign]
  rcases s.get? x with _ | old
  · simp [eq_comm]
  · by_cases hk : old.kind = v.kind <;> simp [hk, @eq_comm _ t]

/-- An assignment fails if the name is visible with another kind. -/
theorem assign_eq_error_iff {s : Scopes} {x : String} {v : Value} {f : Fault} :
    s.assign x v = .error f ↔
      ∃ w, s.get? x = some w ∧ w.kind ≠ v.kind ∧ f = .typeConflict x w.kind v.kind := by
  rw [assign]
  rcases s.get? x with _ | old
  · simp
  · by_cases hk : old.kind = v.kind <;> simp [hk, @eq_comm _ f]

end Scopes

end Scriptling
