import TypedLua.Machine

/-!
# The variables of a store

A variable is named by its frame and its name.
-/

namespace TypedLua

abbrev Cell := Nat × String

namespace Store

def content (s : Store) (c : Cell) : Option Slot := (s.frames.getD c.1 []).lookup c.2

def put (s : Store) (c : Cell) (slot : Slot) : Store :=
  { s with frames := s.frames.modify c.1 (Association.put c.2 slot) }

def pushFrame (s : Store) (frame : Frame) : Store := { s with frames := s.frames.push frame }

def pushClosure (s : Store) (c : Closure) : Store := { s with closures := s.closures.push c }

variable {s : Store} {c c' : Cell} {slot : Slot}

theorem lt_of_content (h : s.content c = some slot) : c.1 < s.frames.size := by
  rcases Nat.lt_or_ge c.1 s.frames.size with hlt | hge
  · exact hlt
  · have hframe : s.frames.getD c.1 [] = [] := by simp [Array.getD, Nat.not_lt.2 hge]
    rw [content, hframe] at h
    cases h

theorem content_put_self (h : c.1 < s.frames.size) : (s.put c slot).content c = some slot := by
  unfold content put
  have hsize : c.1 < (s.frames.modify c.1 (Association.put c.2 slot)).size := by simpa using h
  simp only [Array.getD, hsize, dite_true]
  simp [Array.getElem_modify]

theorem content_put_of_ne (h : c' ≠ c) : (s.put c slot).content c' = s.content c' := by
  unfold content put
  by_cases hlt : c'.1 < s.frames.size
  · have hsize : c'.1 < (s.frames.modify c.1 (Association.put c.2 slot)).size := by simpa using hlt
    simp only [Array.getD, hsize, hlt, dite_true]
    by_cases hframe : c.1 = c'.1
    · have hname : c.2 ≠ c'.2 := fun hname => h (Prod.ext hframe.symm hname.symm)
      have hentry := Association.lookup_put_of_ne hname.symm slot (s.frames[c'.1])
      simpa [Array.getElem_modify, hframe] using hentry
    · simp [Array.getElem_modify, hframe]
  · simp [Array.getD, hlt]

@[simp] theorem size_put : (s.put c slot).frames.size = s.frames.size := Array.size_modify

@[simp] theorem put_heap_tables : (s.put c slot).tables = s.tables := rfl

@[simp] theorem put_closures : (s.put c slot).closures = s.closures := rfl

theorem content_pushFrame_of_lt (frame : Frame) (h : c.1 < s.frames.size) :
    (s.pushFrame frame).content c = s.content c := by
  unfold content pushFrame
  have hsize : c.1 < (s.frames.push frame).size := by
    simp only [Array.size_push]
    omega
  simp only [Array.getD, hsize, h, dite_true]
  simp [Array.getElem_push, h]

theorem content_pushFrame_self (frame : Frame) (x : String) :
    (s.pushFrame frame).content (s.frames.size, x) = frame.lookup x := by
  unfold content pushFrame
  have hsize : s.frames.size < (s.frames.push frame).size := by simp
  simp

@[simp] theorem size_pushFrame (frame : Frame) : (s.pushFrame frame).frames.size = s.frames.size + 1 :=
  Array.size_push ..

end Store

namespace Machine

variable {s : Store}

def holder (s : Store) (x : String) : List Nat → Option Nat
  | [] => none
  | f :: fs => if (s.content (f, x)).isSome then some f else holder s x fs

section Equations

-- Made here, so that the proofs that open it need not wait for each other.
attribute [local simp] holder

end Equations

variable {x : String} {frames : List Nat} {f : Nat}

theorem holder_some (h : holder s x frames = some f) : f ∈ frames ∧ ∃ slot, s.content (f, x) = some slot := by
  induction frames with
  | nil => cases h
  | cons g frames ih =>
    rw [holder] at h
    split at h
    · next hsome =>
      cases h
      exact ⟨List.mem_cons_self, Option.isSome_iff_exists.1 hsome⟩
    · obtain ⟨hmem, hslot⟩ := ih h
      exact ⟨List.mem_cons_of_mem _ hmem, hslot⟩

theorem assignHolder_eq (slot : Slot) : assignHolder x slot frames s =
    (holder s x frames).elim (.error (.fault (.trap (.unbound x))) s) fun f => .ok () (s.put (f, x) slot) := by
  induction frames with
  | nil => rfl
  | cons g frames ih =>
    have hslot : Run.slot? g x s = .ok (s.content (g, x)) s := rfl
    rw [assignHolder, holder, Run.bind_ok hslot]
    cases s.content (g, x) with
    | none => exact ih
    | some old => rfl

theorem assignHolder_of_holder (slot : Slot) (h : holder s x frames = some f) :
    assignHolder x slot frames s = .ok () (s.put (f, x) slot) := by
  rw [assignHolder_eq, h, Option.elim_some]

theorem assignHolder_of_none (slot : Slot) (h : holder s x frames = none) :
    assignHolder x slot frames s = .error (.fault (.trap (.unbound x))) s := by
  rw [assignHolder_eq, h, Option.elim_none]

/-- Looks a variable up in one frame, and further out if the frame does not have it. -/
def lookupIn (frame : Nat) (x : String) (unset : Trap) (outer : Run Slot) : Run Slot := do
  match ← Run.slot? frame x with
  | some .unset => Run.trap unset
  | some content => return content
  | none => outer

theorem lookupIn_of_holder (h : holder s x (g :: frames) = some f) (hslot : s.content (f, x) = some slot)
    (hset : slot ≠ .unset) (unset : Trap) (houter : holder s x frames = some f → outer s = .ok slot s) :
    lookupIn g x unset outer s = .ok slot s := by
  rw [holder] at h
  have hget : Run.slot? g x s = .ok (s.content (g, x)) s := rfl
  rw [lookupIn, Run.bind_ok hget]
  cases hcontent : s.content (g, x) with
  | none =>
    rw [hcontent] at h
    exact houter h
  | some old =>
    rw [hcontent] at h
    cases h
    rw [hslot] at hcontent
    cases hcontent
    cases slot with
    | unset => exact absurd rfl hset
    | value | flow | iteration => rfl

theorem lookupOuter_of_holder (h : holder s x frames = some f)
    (hslot : s.content (f, x) = some slot) (hset : slot ≠ .unset) : lookupOuter x frames s = .ok slot s := by
  induction frames with
  | nil => cases h
  | cons g frames ih => exact lookupIn_of_holder h hslot hset _ ih

theorem lookup_of_holder (h : holder s x frames = some f)
    (hslot : s.content (f, x) = some slot) (hset : slot ≠ .unset) : lookup x frames s = .ok slot s := by
  cases frames with
  | nil => cases h
  | cons g frames => exact lookupIn_of_holder h hslot hset _ fun h => lookupOuter_of_holder h hslot hset

end Machine

end TypedLua
