import Mathlib.Algebra.BigOperators.Group.List.Basic
import Mathlib.Algebra.Ring.Nat
import Occp.Lib.Runs

/-!
# Workers behind a semaphore

Crews of workers share the slots of one semaphore. A worker waits for a slot, has it while it
works, and then it is over: its work has come to an outcome, or it was cancelled before or
while it worked. Who is next is not said, so that every order is a run.
-/

namespace Occp.Lib

inductive Position (ω : Type) where
  | waiting
  | working
  | ended (outcome : ω)
  | cancelled (started : Bool)

inductive Turn (ω : Type) where
  | start
  | finish (outcome : ω)
  | cancel

structure Worker (β ω : Type) where
  data : β
  position : Position ω := .waiting

/-- Workers that are gathered together. -/
structure Crew (γ β ω : Type) where
  info : γ
  workers : List (Worker β ω)

structure Pool (γ β ω : Type) where
  free : Nat
  crews : List (Crew γ β ω) := []

section

variable {α γ β ω : Type}

namespace Position

def next : Position ω → Turn ω → Option (Position ω)
  | waiting, .start => some working
  | waiting, .cancel => some (cancelled false)
  | working, .finish outcome => some (ended outcome)
  | working, .cancel => some (cancelled true)
  | _, _ => none

/-- The slots that are free once a worker here has taken its turn. -/
def slots (free : Nat) : Position ω → Turn ω → Option Nat
  | waiting, .start => if free = 0 then none else some (free - 1)
  | working, _ => some (free + 1)
  | _, _ => some free

def isOver : Position ω → Bool
  | ended _ | cancelled _ => true
  | waiting | working => false

def isCancelled : Position ω → Bool
  | cancelled _ => true
  | _ => false

end Position

def Turn.isCancel : Turn ω → Bool
  | cancel => true
  | _ => false

/-- No turn is taken by a worker that was cancelled, and only a cancellation makes one so. -/
theorem Position.isCancelled_next {here there : Position ω} {t : Turn ω} (h : here.next t = some there) :
    here.isCancelled = false ∧ there.isCancelled = t.isCancel := by
  cases here <;> cases t <;> cases h <;> exact ⟨rfl, rfl⟩

def Crew.isOver (crew : Crew γ β ω) : Bool := crew.workers.all (·.position.isOver)

/-- No worker of the crew was cancelled. -/
def Crew.Spared (crew : Crew γ β ω) : Prop := ∀ w ∈ crew.workers, w.position.isCancelled = false

/-- The worker has taken a turn and is there. -/
def Worker.after (act : β → Turn ω → β) (w : Worker β ω) (t : Turn ω) (there : Position ω) : Worker β ω where
  data := act w.data t
  position := there

/-- The crew once its worker has moved. -/
def Crew.after (act : β → Turn ω → β) (crew : Crew γ β ω) (i : Nat) (w : Worker β ω) (t : Turn ω)
    (there : Position ω) : Crew γ β ω :=
  { crew with workers := crew.workers.set i (w.after act t there) }

namespace Pool

/-- A turn of a worker, and what it does to the worker's data. None is taken that the worker
cannot take where it is, and none without a free slot if it needs one. -/
def turn (act : β → Turn ω → β) (s : Pool γ β ω) (g i : Nat) (t : Turn ω) : Option (Pool γ β ω) := do
  let crew ← s.crews[g]?
  let w ← crew.workers[i]?
  let there ← w.position.next t
  let free ← w.position.slots s.free t
  some
    { free
      crews := s.crews.set g (crew.after act i w t there) }

/-- A crew that starts to wait. -/
def gather (s : Pool γ β ω) (info : γ) (data : List β) : Pool γ β ω :=
  { s with crews := s.crews ++ [{ info, workers := data.map fun d => { data := d } }] }

end Pool

/-! ## One place of a list -/

/-- What stands before and after a place whose element changes. -/
theorem split_set {l : List α} {k : Nat} {x : α} (h : l[k]? = some x) (y : α) :
    ∃ before after, l = before ++ x :: after ∧ l.set k y = before ++ y :: after := by
  obtain ⟨hlt, rfl⟩ := List.getElem?_eq_some_iff.mp h
  refine ⟨l.take k, l.drop (k + 1), ?_, List.set_eq_take_append_cons_drop.trans (if_pos hlt)⟩
  rw [List.getElem_cons_drop, List.take_append_drop]

theorem forall_mem_set {p : α → Prop} {l : List α} {k : Nat} {y : α} (hl : ∀ z ∈ l, p z) (hy : p y) :
    ∀ z ∈ l.set k y, p z := by
  intro z hz
  rcases List.mem_or_eq_of_mem_set hz with hmem | rfl
  · exact hl z hmem
  · exact hy

theorem map_set_of_eq {δ : Type} {l : List α} {k : Nat} {x y : α} {f : α → δ} (h : l[k]? = some x) (hf : f y = f x) :
    (l.set k y).map f = l.map f := by
  obtain ⟨before, after, hl, hset⟩ := split_set h y
  rw [hset, hl, List.map_append, List.map_append, List.map_cons, List.map_cons, hf]

/-- A sum changes as much as the one that changes. -/
theorem sum_map_set {l : List α} {k : Nat} {x : α} (h : l[k]? = some x) (y : α) (f : α → Nat) :
    ((l.set k y).map f).sum + f x = (l.map f).sum + f y := by
  obtain ⟨before, after, hl, hset⟩ := split_set h y
  rw [hset, hl]
  simp only [List.map_append, List.map_cons, List.sum_append, List.sum_cons]
  omega

/-! ## What a turn changes -/

variable {act : β → Turn ω → β} {s s' : Pool γ β ω} {g i : Nat} {t : Turn ω}

/-- A worker has moved on. -/
structure Moved (act : β → Turn ω → β) (s s' : Pool γ β ω) (g i : Nat) (t : Turn ω) (crew : Crew γ β ω)
    (w : Worker β ω) (there : Position ω) : Prop where
  hcrew : s.crews[g]? = some crew
  hworker : crew.workers[i]? = some w
  hnext : w.position.next t = some there
  hcrews : s'.crews = s.crews.set g (crew.after act i w t there)

theorem moved_of_turn (h : s.turn act g i t = some s') : ∃ crew w there, Moved act s s' g i t crew w there := by
  simp only [Pool.turn, Option.bind_eq_bind, Option.bind_eq_some_iff, Option.some.injEq] at h
  obtain ⟨crew, hcrew, w, hw, there, hnext, free, -, rfl⟩ := h
  exact ⟨crew, w, there, hcrew, hw, hnext, rfl⟩

variable {crew : Crew γ β ω} {w : Worker β ω} {there : Position ω} {d : Nat}

/-- What the crew of a worker keeps, all crews keep. -/
theorem Moved.forall_crews {p : Crew γ β ω → Prop} (h : Moved act s s' g i t crew w there)
    (hs : ∀ crew ∈ s.crews, p crew) (hp : p crew → p (crew.after act i w t there)) : ∀ crew ∈ s'.crews, p crew := by
  rw [h.hcrews]
  exact forall_mem_set hs (hp (hs crew (List.mem_of_getElem? h.hcrew)))

theorem Pool.forall_crews_gather {p : Crew γ β ω → Prop} {info : γ} {data : List β}
    (hs : ∀ crew ∈ s.crews, p crew) (hp : p { info, workers := data.map fun d => { data := d } }) : ∀ crew ∈ (s.gather info data).crews, p crew := by
  intro crew hcrew
  rcases List.mem_append.mp hcrew with hold | hnew
  · exact hs crew hold
  · obtain rfl := List.mem_singleton.mp hnew
    exact hp

/-- What a worker keeps on its turn, the crew keeps of all. -/
theorem Moved.forall_workers {p : Worker β ω → Prop} (h : Moved act s s' g i t crew w there)
    (hs : ∀ w ∈ crew.workers, p w) (hp : p w → p (w.after act t there)) :
    ∀ w' ∈ (crew.after act i w t there).workers, p w' :=
  forall_mem_set hs (hp (hs w (List.mem_of_getElem? h.hworker)))

theorem Moved.getElem?_self (h : Moved act s s' g i t crew w there) :
    s'.crews[g]? = some (crew.after act i w t there) := by
  obtain ⟨hlt, -⟩ := List.getElem?_eq_some_iff.mp h.hcrew
  rw [h.hcrews, List.getElem?_set_self hlt]

theorem Moved.getElem?_of_ne (h : Moved act s s' g i t crew w there) (hne : g ≠ d) : s'.crews[d]? = s.crews[d]? := by
  rw [h.hcrews, List.getElem?_set_ne hne]

/-- Over all workers a sum changes as much as for the one that moves. -/
theorem Moved.sum_workers (h : Moved act s s' g i t crew w there) (f : Worker β ω → Nat) :
    (s'.crews.map fun crew => (crew.workers.map f).sum).sum + f w =
      (s.crews.map fun crew => (crew.workers.map f).sum).sum + f (w.after act t there) := by
  have hcrews := sum_map_set h.hcrew (crew.after act i w t there) fun crew => (crew.workers.map f).sum
  have hworkers : ((crew.after act i w t there).workers.map f).sum + f w =
      (crew.workers.map f).sum + f (w.after act t there) := sum_map_set h.hworker (w.after act t there) f
  rw [← h.hcrews] at hcrews
  omega

/-- A crew is spared as long as no turn of one of its workers is a cancellation. -/
def Pool.Spares (s : Pool γ β ω) (d : Nat) : Prop := ∀ crew ∈ s.crews[d]?, crew.Spared

theorem Pool.forall_spares_iff : (∀ d, s.Spares d) ↔ ∀ crew ∈ s.crews, crew.Spared := by
  constructor
  · intro h crew hcrew
    obtain ⟨d, hd⟩ := List.mem_iff_getElem?.mp hcrew
    exact h d crew hd
  · intro h d crew hcrew
    exact h crew (List.mem_of_getElem? hcrew)

theorem Moved.spares_iff (h : Moved act s s' g i t crew w there) :
    s'.Spares d ↔ s.Spares d ∧ ¬ (g = d ∧ t.isCancel = true) := by
  obtain ⟨hbefore, hafter⟩ := Position.isCancelled_next h.hnext
  by_cases hne : g = d
  · subst hne
    have hold : s.Spares g ↔ crew.Spared := by simp [Pool.Spares, h.hcrew]
    have hnew : s'.Spares g ↔ ∀ w' ∈ crew.workers.set i (w.after act t there), w'.position.isCancelled = false := by
      simp [Pool.Spares, h.getElem?_self, Crew.Spared, Crew.after]
    obtain ⟨before, others, hworkers, hset⟩ := split_set h.hworker (w.after act t there)
    rw [hold, hnew, hset, Crew.Spared, hworkers]
    simp only [List.forall_mem_append, List.forall_mem_cons, hbefore, true_and, Worker.after, hafter]
    simp only [Bool.not_eq_true]
    tauto
  · rw [Pool.Spares, h.getElem?_of_ne hne, Pool.Spares]
    simp [hne]

theorem Pool.spares_gather {info : γ} {data : List β} : (s.gather info data).Spares d ↔ s.Spares d := by
  unfold Pool.Spares Pool.gather
  rcases Nat.lt_trichotomy d s.crews.length with hlt | heq | hgt
  · rw [List.getElem?_append_left hlt]
  · subst heq
    simp [Crew.Spared, Position.isCancelled]
  · rw [List.getElem?_eq_none (by simp; omega), List.getElem?_eq_none (by omega)]

end

end Occp.Lib
