import Underwriting.DurableGraph.Basic

/-!
# Recovery

A process that runs a graph may be killed. What it leaves of a call is the snapshot after
the nodes that have returned so far, and this is what the call leaves when it may take no
more nodes than these. So `drive j` is also the run that is killed after its `j`-th node.

Another process then takes the thread up. The runtime offers the resume value of that call
to the node that is due, and only a node that interrupts looks at it: `deliver`. It differs
from `resume` on a thread whose due node would interrupt and has not, which is a thread that
only a kill leaves: `deliver_eq_resume`.

`Maintains` is what a node has to do so that a property of snapshots holds after every call,
killed or not, and `AgreeFrom` what two graphs have to share so that a run cannot tell them
apart.
-/

namespace DurableGraph

open Python

namespace Graph

variable {N S U P V ρ ε : Type} (g : Graph N S U P V ρ ε)

/-- `invoke(Command(resume=v))` on a thread that another process may have left. -/
def deliver (k : ℕ) (v : V) (snap : Snapshot N S P) (r : ρ) :
    Except ε Unit × Snapshot N S P × ρ :=
  match snap.next with
  | none => (.ok (), snap, r)
  | some n => g.drive k n (some v) snap.values r

variable {g} {k : ℕ} {n : N} {v v' : Option V} {s : S} {r : ρ}

/-- Only the first node sees the value. -/
theorem drive_congr (h : ∀ r, g.node n v s r = g.node n v' s r) :
    g.drive k n v s r = g.drive k n v' s r := by
  cases k with
  | zero => rfl
  | succ k => simp only [drive, h]

theorem deliver_of_next {snap : Snapshot N S P} {x : V} (h : snap.next = some n) :
    g.deliver k x snap r = g.drive k n (some x) snap.values r := by
  rw [deliver, h]

theorem deliver_eq_resume {snap : Snapshot N S P} {x : V}
    (h : ∀ n, snap.next = some n → snap.interrupts = [] →
      ∀ r, g.node n (some x) snap.values r = g.node n none snap.values r) :
    g.deliver k x snap r = g.resume k x snap r := by
  cases hnext : snap.next with
  | none => simp only [deliver, resume, hnext]
  | some n =>
      rw [deliver_of_next hnext]
      simp only [resume, hnext]
      cases hinterrupts : snap.interrupts with
      | nil => exact drive_congr (h n hnext hinterrupts)
      | cons p ps => rfl

/-! ## Graphs that agree from some nodes on -/

/-- Two graphs do the same from the nodes in `A` on: these lead to nodes in `A` only. -/
structure AgreeFrom (g g' : Graph N S U P V ρ ε) (A : N → Prop) : Prop where
  node : ∀ {n}, A n → g.node n = g'.node n
  merge : g.merge = g'.merge
  edge : g.edge = g'.edge
  payload : g.payload? = g'.payload?
  recursionError : g.recursionError = g'.recursionError
  closed : ∀ {n m s}, A n → g.edge n s = some m → A m

namespace AgreeFrom

variable {g' : Graph N S U P V ρ ε} {A : N → Prop} (h : g.AgreeFrom g' A)

include h

theorem drive (k : ℕ) (hn : A n) : g.drive k n v s r = g'.drive k n v s r := by
  induction k generalizing n v s r with
  | zero => rw [Graph.drive, Graph.drive, h.recursionError]
  | succ k ih =>
      rw [Graph.drive, Graph.drive, ← h.node hn, ← h.merge, ← h.edge, ← h.payload]
      rcases g.node n v s r with ⟨e | u, r'⟩
      · rfl
      · cases hedge : g.edge n (g.merge s u) with
        | none => simp only [hedge]
        | some m =>
            simp only [hedge]
            exact ih (h.closed hn hedge)

theorem deliver (k : ℕ) (x : V) {snap : Snapshot N S P} (hn : ∀ n ∈ snap.next, A n) :
    g.deliver k x snap r = g'.deliver k x snap r := by
  cases hnext : snap.next with
  | none => rw [Graph.deliver, Graph.deliver, hnext]
  | some n =>
      rw [deliver_of_next hnext, deliver_of_next hnext]
      exact h.drive k (hn n hnext)

/-- And a run from there ends there. -/
theorem next_drive (k : ℕ) (hn : A n) : ∀ m ∈ (g.drive k n v s r).2.1.next, A m := by
  induction k generalizing n v s r with
  | zero =>
      rintro m ⟨⟩
      exact hn
  | succ k ih =>
      rcases hnode : g.node n v s r with ⟨e | u, r'⟩
      · cases hp : g.payload? e with
        | none =>
            rw [drive_of_raise hnode hp]
            rintro m ⟨⟩
            exact hn
        | some p =>
            rw [drive_of_interrupt hnode hp]
            rintro m ⟨⟩
            exact hn
      · cases hedge : g.edge n (g.merge s u) with
        | none =>
            rw [drive_of_end hnode hedge]
            rintro m ⟨⟩
        | some m =>
            rw [drive_of_edge hnode hedge]
            exact ih (h.closed hn hedge)

end AgreeFrom

/-! ## Invariants -/

/-- The nodes keep `I`, given resume values in `Q`. -/
structure Maintains (g : Graph N S U P V ρ ε) (Q : V → Prop)
    (I : Snapshot N S P → ρ → Prop) : Prop where
  /-- A node that returns. -/
  returned : ∀ {n s ps r v u r'}, I ⟨s, some n, ps⟩ r → (∀ x ∈ v, Q x) →
    g.node n v s r = (.ok u, r') → I ⟨g.merge s u, g.edge n (g.merge s u), []⟩ r'
  /-- A node that interrupts. -/
  interrupted : ∀ {n s ps r v e r' p}, I ⟨s, some n, ps⟩ r → (∀ x ∈ v, Q x) →
    g.node n v s r = (.error e, r') → g.payload? e = some p → I ⟨s, some n, [p]⟩ r'
  /-- A node that raises. -/
  raised : ∀ {n s ps r v e r'}, I ⟨s, some n, ps⟩ r → (∀ x ∈ v, Q x) →
    g.node n v s r = (.error e, r') → I ⟨s, some n, []⟩ r'
  /-- A node that has not been executed. -/
  stopped : ∀ {n s ps r}, I ⟨s, some n, ps⟩ r → I ⟨s, some n, []⟩ r

namespace Maintains

variable {Q : V → Prop} {I : Snapshot N S P → ρ → Prop} (h : g.Maintains Q I)

include h

/-- What the nodes keep holds after a run and after every part of it. -/
theorem drive (k : ℕ) {ps : List P} (hI : I ⟨s, some n, ps⟩ r) (hv : ∀ x ∈ v, Q x) :
    I (g.drive k n v s r).2.1 (g.drive k n v s r).2.2 := by
  induction k generalizing n v s r ps with
  | zero => exact h.stopped hI
  | succ k ih =>
      rcases hnode : g.node n v s r with ⟨e | u, r'⟩
      · cases hp : g.payload? e with
        | some p =>
            rw [drive_of_interrupt hnode hp]
            exact h.interrupted hI hv hnode hp
        | none =>
            rw [drive_of_raise hnode hp]
            exact h.raised hI hv hnode
      · have hreturned := h.returned hI hv hnode
        cases hedge : g.edge n (g.merge s u) with
        | none =>
            rw [hedge] at hreturned
            rw [drive_of_end hnode hedge]
            exact hreturned
        | some m =>
            rw [hedge] at hreturned
            rw [drive_of_edge hnode hedge]
            exact ih hreturned (by simp)

theorem invoke (k : ℕ) {input : U} (hI : I ⟨g.merge s input, some g.entry, []⟩ r) :
    I (g.invoke k input s r).2.1 (g.invoke k input s r).2.2 :=
  h.drive k hI (by simp)

theorem deliver (k : ℕ) {snap : Snapshot N S P} {x : V} (hI : I snap r) (hx : Q x) :
    I (g.deliver k x snap r).2.1 (g.deliver k x snap r).2.2 := by
  obtain ⟨s, next, ps⟩ := snap
  cases next with
  | none => exact hI
  | some n =>
      have hv : ∀ y ∈ some x, Q y := by
        intro y hy
        rwa [← Option.mem_some_iff.1 hy]
      exact h.drive k hI hv

/-- What a run raises comes from a node that does not interrupt, unless it is out of nodes. -/
theorem raises_drive {E : ε → Prop} (hrecursion : E g.recursionError)
    (hnode : ∀ {n s ps r v e r'}, I ⟨s, some n, ps⟩ r → (∀ x ∈ v, Q x) →
      g.node n v s r = (.error e, r') → g.payload? e = none → E e)
    (k : ℕ) {ps : List P} (hI : I ⟨s, some n, ps⟩ r) (hv : ∀ x ∈ v, Q x) {e : ε}
    (he : (g.drive k n v s r).1 = .error e) : E e := by
  induction k generalizing n v s r ps with
  | zero =>
      cases he
      exact hrecursion
  | succ k ih =>
      rcases hrun : g.node n v s r with ⟨e' | u, r'⟩
      · cases hp : g.payload? e' with
        | some p =>
            rw [drive_of_interrupt hrun hp] at he
            cases he
        | none =>
            rw [drive_of_raise hrun hp] at he
            cases he
            exact hnode hI hv hrun hp
      · have hreturned := h.returned hI hv hrun
        cases hedge : g.edge n (g.merge s u) with
        | none =>
            rw [drive_of_end hrun hedge] at he
            cases he
        | some m =>
            rw [hedge] at hreturned
            rw [drive_of_edge hrun hedge] at he
            exact ih hreturned (by simp) he

/-- A run that returns is over, or it pauses at the node it has started with or at a later one
that has been given no value. -/
theorem pauses_drive {C : N → Option V → Prop} {rank : N → ℕ}
    (hrank : ∀ {n m s}, g.edge n s = some m → rank m < rank n)
    (hpause : ∀ {n s ps r v e r' p}, I ⟨s, some n, ps⟩ r → (∀ x ∈ v, Q x) →
      g.node n v s r = (.error e, r') → g.payload? e = some p → C n v)
    (k : ℕ) {ps : List P} (hI : I ⟨s, some n, ps⟩ r) (hv : ∀ x ∈ v, Q x)
    (hok : (g.drive k n v s r).1 = .ok ()) :
    ∀ m ∈ (g.drive k n v s r).2.1.next, m = n ∧ C n v ∨ rank m < rank n ∧ C m none := by
  induction k generalizing n v s r ps with
  | zero => cases hok
  | succ k ih =>
      rcases hnode : g.node n v s r with ⟨e | u, r'⟩
      · cases hp : g.payload? e with
        | some p =>
            rw [drive_of_interrupt hnode hp]
            rintro m ⟨⟩
            exact .inl ⟨rfl, hpause hI hv hnode hp⟩
        | none =>
            rw [drive_of_raise hnode hp] at hok
            cases hok
      · have hreturned := h.returned hI hv hnode
        cases hedge : g.edge n (g.merge s u) with
        | none =>
            rw [drive_of_end hnode hedge]
            rintro m ⟨⟩
        | some m' =>
            rw [hedge] at hreturned
            rw [drive_of_edge hnode hedge] at hok ⊢
            intro m hm
            rcases ih hreturned (by simp) hok m hm with ⟨rfl, hC⟩ | ⟨hlt, hC⟩
            · exact .inr ⟨hrank hedge, hC⟩
            · exact .inr ⟨Nat.lt_trans hlt (hrank hedge), hC⟩

end Maintains

/-- Where the edges lead to lower ranks, so do the runs. -/
theorem rank_drive_le {rank : N → ℕ} (hrank : ∀ {n m s}, g.edge n s = some m → rank m < rank n)
    (k : ℕ) : ∀ m ∈ (g.drive k n v s r).2.1.next, rank m ≤ rank n := by
  induction k generalizing n v s r with
  | zero =>
      rintro m ⟨⟩
      exact Nat.le_refl _
  | succ k ih =>
      rcases hnode : g.node n v s r with ⟨e | u, r'⟩
      · cases hp : g.payload? e with
        | none =>
            rw [drive_of_raise hnode hp]
            rintro m ⟨⟩
            exact Nat.le_refl _
        | some p =>
            rw [drive_of_interrupt hnode hp]
            rintro m ⟨⟩
            exact Nat.le_refl _
      · cases hedge : g.edge n (g.merge s u) with
        | none =>
            rw [drive_of_end hnode hedge]
            rintro m ⟨⟩
        | some m' =>
            rw [drive_of_edge hnode hedge]
            intro m hm
            exact Nat.le_trans (ih m hm) (Nat.le_of_lt (hrank hedge))

end Graph

end DurableGraph
