import Underwriting.Python.Effect

/-!
# Durable graphs

A graph of named nodes is run over a state of keyed values. A node reads the values
and returns an update, or it raises. The runtime merges the update into the values,
follows the outgoing edge and runs the next node, so that after every node the values
and the next node are a *snapshot* that survives the call. Two ways a node can end
leave the run unfinished, with that node still pending in the snapshot:

* it interrupts: the exception carries a payload, which is kept in the snapshot, and
  the call returns normally;
* it raises anything else: the exception leaves the call.

A fresh input restarts at the entry and is merged into whatever values are stored. A
resume value is delivered to the pending node only when that node is interrupted;
otherwise the node is just executed again.
-/

namespace DurableGraph

open Python

/-- What a checkpointer keeps of one thread: the merged values, the node that is due
next (`none` once the run is finished) and the payloads of pending interrupts. -/
structure Snapshot (N S P : Type) where
  values : S
  next : Option N
  interrupts : List P

/-- A graph over node names `N`, values `S`, updates `U`, interrupt payloads `P`, resume
values `V`, process state `ρ` and exceptions `ε`. -/
structure Graph (N S U P V ρ ε : Type) where
  entry : N
  node : N → Option V → S → Py ρ ε U
  merge : S → U → S
  edge : N → S → Option N
  /-- The payload of an exception by which a node interrupts. -/
  payload? : ε → Option P
  /-- Raised when a call takes more steps than it may. -/
  recursionError : ε

variable {N S U P V ρ ε : Type}

namespace Graph

variable (g : Graph N S U P V ρ ε)

/-- Run from node `n` for at most `k` nodes. The resume value goes to the first node
only. The result is what the call returns or raises, the snapshot it leaves and the
state of the process. -/
def drive : ℕ → N → Option V → S → ρ → Except ε Unit × Snapshot N S P × ρ
  | 0, n, _, s, r => (.error g.recursionError, ⟨s, some n, []⟩, r)
  | k + 1, n, v, s, r =>
      match g.node n v s r with
      | (.ok u, r') =>
          match g.edge n (g.merge s u) with
          | none => (.ok (), ⟨g.merge s u, none, []⟩, r')
          | some m => drive k m none (g.merge s u) r'
      | (.error e, r') =>
          match g.payload? e with
          | some p => (.ok (), ⟨s, some n, [p]⟩, r')
          | none => (.error e, ⟨s, some n, []⟩, r')

/-- `invoke(input)`: restart at the entry, keeping every stored value that the input
does not overwrite. -/
def invoke (k : ℕ) (input : U) (s : S) (r : ρ) : Except ε Unit × Snapshot N S P × ρ :=
  g.drive k g.entry none (g.merge s input) r

/-- `invoke(Command(resume=v))`: run the pending node, handing it the value only when it
is interrupted. -/
def resume (k : ℕ) (v : V) (snap : Snapshot N S P) (r : ρ) :
    Except ε Unit × Snapshot N S P × ρ :=
  match snap.next with
  | none => (.ok (), snap, r)
  | some n => g.drive k n (if snap.interrupts.isEmpty then none else some v) snap.values r

/-! ## One node at a time -/

variable {g} {k : ℕ} {n m : N} {v : Option V} {s : S} {r r' : ρ} {u : U} {e : ε} {p : P}

theorem drive_of_edge (hnode : g.node n v s r = (.ok u, r'))
    (hedge : g.edge n (g.merge s u) = some m) :
    g.drive (k + 1) n v s r = g.drive k m none (g.merge s u) r' := by
  simp only [drive, hnode, hedge]

theorem drive_of_end (hnode : g.node n v s r = (.ok u, r'))
    (hedge : g.edge n (g.merge s u) = none) :
    g.drive (k + 1) n v s r = (.ok (), ⟨g.merge s u, none, []⟩, r') := by
  simp only [drive, hnode, hedge]

theorem drive_of_interrupt (hnode : g.node n v s r = (.error e, r'))
    (hp : g.payload? e = some p) :
    g.drive (k + 1) n v s r = (.ok (), ⟨s, some n, [p]⟩, r') := by
  simp only [drive, hnode, hp]

theorem drive_of_raise (hnode : g.node n v s r = (.error e, r'))
    (hp : g.payload? e = none) :
    g.drive (k + 1) n v s r = (.error e, ⟨s, some n, []⟩, r') := by
  simp only [drive, hnode, hp]

end Graph

end DurableGraph
