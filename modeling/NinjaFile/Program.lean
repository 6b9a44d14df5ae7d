import NinjaFile.Fault
import NinjaFile.Guard
import NinjaFile.Value

/-!
# Programs

What one thread does, as a tree of atomic steps: changing the state, entering or
leaving a guard, and asking the environment for something.  A program decides
nothing about other threads; a run of one thread alone is `run`, which stops where
the thread would have to wait, and any other order of steps can be had from the
same tree.
-/

namespace NinjaFile

/-- A state that holds guards. -/
class Guarded (σ : Type) where
  guard : σ → LockId → Guard
  setGuard : σ → LockId → Guard → σ

/-- A program on states `σ` that asks for `ρ` and ends in `α` or in a fault. -/
inductive Program (σ ρ α : Type) where
  | pure (a : α)
  | fail (fault : Fault)
  /-- One atomic change; what follows sees the state before it. -/
  | act (f : σ → σ) (next : σ → Program σ ρ α)
  /-- What follows sees why the guard was refused, if it was. -/
  | enter (lock : LockId) (mode : Mode) (next : Option BorrowFault → Program σ ρ α)
  | leave (lock : LockId) (mode : Mode) (next : Program σ ρ α)
  | call (request : ρ) (next : Program σ ρ α)

namespace Program

def bind : Program σ ρ α → (α → Program σ ρ β) → Program σ ρ β
  | .pure a, k => k a
  | .fail fault, _ => .fail fault
  | .act f next, k => .act f fun s => (next s).bind k
  | .enter lock mode next, k => .enter lock mode fun r => (next r).bind k
  | .leave lock mode next, k => .leave lock mode (next.bind k)
  | .call request next, k => .call request (next.bind k)

instance : Monad (Program σ ρ) where
  pure := .pure
  bind := bind

@[simp] theorem pure_eq (a : α) : (Pure.pure a : Program σ ρ α) = .pure a := rfl

@[simp] theorem bind_eq (p : Program σ ρ α) (k : α → Program σ ρ β) : p >>= k = p.bind k := rfl

@[simp] theorem pure_bind (a : α) (k : α → Program σ ρ β) : (Program.pure a).bind k = k a := rfl

@[simp] theorem fail_bind (fault : Fault) (k : α → Program σ ρ β) :
    (Program.fail fault).bind k = .fail fault := rfl

@[simp] theorem act_bind (f : σ → σ) (next : σ → Program σ ρ α) (k : α → Program σ ρ β) :
    (Program.act f next).bind k = .act f fun s => (next s).bind k := rfl

@[simp] theorem enter_bind (lock : LockId) (mode : Mode)
    (next : Option BorrowFault → Program σ ρ α) (k : α → Program σ ρ β) :
    (Program.enter lock mode next).bind k = .enter lock mode fun r => (next r).bind k := rfl

@[simp] theorem leave_bind (lock : LockId) (mode : Mode) (next : Program σ ρ α)
    (k : α → Program σ ρ β) :
    (Program.leave lock mode next).bind k = .leave lock mode (next.bind k) := rfl

@[simp] theorem call_bind (request : ρ) (next : Program σ ρ α) (k : α → Program σ ρ β) :
    (Program.call request next).bind k = .call request (next.bind k) := rfl

@[simp] theorem bind_pure (p : Program σ ρ α) : p.bind .pure = p := by
  induction p <;> simp_all

theorem bind_assoc (p : Program σ ρ α) (k : α → Program σ ρ β) (m : β → Program σ ρ γ) :
    (p.bind k).bind m = p.bind fun a => (k a).bind m := by
  induction p <;> simp_all

instance : LawfulMonad (Program σ ρ) :=
  LawfulMonad.mk' _
    (fun p => by
      change p.bind (fun a => .pure (id a)) = p
      simp)
    (fun _ _ => rfl)
    (fun p _ _ => bind_assoc p _ _)

/-! ## Small programs -/

def get : Program σ ρ σ := .act id .pure

def modify (f : σ → σ) : Program σ ρ Unit := .act f fun _ => .pure ()

/-- One atomic step with an answer. -/
def update (f : σ → α × σ) : Program σ ρ α := .act (fun s => (f s).2) fun s => .pure (f s).1

def request (r : ρ) : Program σ ρ Unit := .call r (.pure ())

def ofExcept : Except Fault α → Program σ ρ α
  | .ok a => .pure a
  | .error fault => .fail fault

/-- Turns a fault into an answer. -/
def attempt : Program σ ρ α → Program σ ρ (Except Fault α)
  | .pure a => .pure (.ok a)
  | .fail fault => .pure (.error fault)
  | .act f next => .act f fun s => (next s).attempt
  | .enter lock mode next => .enter lock mode fun r => (next r).attempt
  | .leave lock mode next => .leave lock mode next.attempt
  | .call request next => .call request next.attempt

/-- Leaves a guard after a program, however that ends. -/
def thenLeave (p : Program σ ρ α) (lock : LockId) (mode : Mode) : Program σ ρ α :=
  p.attempt.bind fun r => .leave lock mode (ofExcept r)

/-- A program inside a guard; it is not run if the guard is refused. -/
def guarded (lock : LockId) (mode : Mode) (body : Program σ ρ α) : Program σ ρ α :=
  .enter lock mode fun
    | some fault => .fail (.borrow fault)
    | none => body.thenLeave lock mode

/-! ## Runs of one thread -/

/-- Where a run stops: at an end, or in front of a guard. -/
inductive Pause (σ ρ α : Type) where
  | done (a : α)
  | failed (fault : Fault)
  | waiting (lock : LockId) (mode : Mode) (next : Option BorrowFault → Program σ ρ α)

/-- Runs a thread as far as it gets.  Requests are answered by `serve`, which may
keep something of its own beside the state. -/
def run [Guarded σ] (t : ThreadId) (serve : ρ → σ × τ → σ × τ) :
    Program σ ρ α → σ × τ → Pause σ ρ α × (σ × τ)
  | .pure a, m => (.done a, m)
  | .fail fault, m => (.failed fault, m)
  | .act f next, (s, x) => run t serve (next s) (f s, x)
  | .enter lock mode next, (s, x) =>
      match (Guarded.guard s lock).request t mode with
      | .entered g => run t serve (next none) (Guarded.setGuard s lock g, x)
      | .refused fault g => run t serve (next (some fault)) (Guarded.setGuard s lock g, x)
      | .waits g => (.waiting lock mode next, (Guarded.setGuard s lock g, x))
  | .leave lock mode next, (s, x) =>
      run t serve next
        (Guarded.setGuard s lock ((Guarded.guard s lock).leave t mode), x)
  | .call request next, m => run t serve next (serve request m)

/-- Goes on with a thread that waited, if the guard now admits or refuses it. -/
def resume [Guarded σ] (t : ThreadId) (serve : ρ → σ × τ → σ × τ) (lock : LockId) (mode : Mode)
    (next : Option BorrowFault → Program σ ρ α) (m : σ × τ) : Pause σ ρ α × (σ × τ) :=
  let (s, x) := m
  match (Guarded.guard s lock).recheck t mode with
  | .entered g => (next none).run t serve (Guarded.setGuard s lock g, x)
  | .refused fault g => (next (some fault)).run t serve (Guarded.setGuard s lock g, x)
  | .waits g => (.waiting lock mode next, (Guarded.setGuard s lock g, x))

end Program

end NinjaFile
