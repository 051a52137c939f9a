import StackRisc.Proofs.Host.Disk
import StackRisc.Proofs.Tool.World

/-!
# StackRisc.Proofs.Tool.Refusal

A host that hands requests on to another one, but may refuse to write or to
remove a file, whatever the disk says: there is no space, or no permission.  A
write that is refused may leave a part of the file.

* `Refusing` — the host, for every series of refusals;
* `Disk.writeUnless`, `Disk.removeUnless` — what a request leaves on a disk;
* `run_write`, `run_remove` — each request uses up one refusal;
* `outcome` — what a task answers, and the disk it leaves.
-/

namespace StackRisc

/-- How a host refuses a change that its disk allows. -/
structure Refusal where
  cause : HostError
  /-- How much was written before, if the file was opened at all. -/
  written : Option Nat := none
  deriving DecidableEq, Repr

namespace Disk

variable {d d' : Disk} {path : String} {contents : List Byte}

/-- The disk behind a request, and its answer. -/
def settle (d : Disk) : Except HostError Disk → Disk × Except HostError Unit
  | .ok d' => (d', .ok ())
  | .error e => (d, .error e)

/-- Write a whole file, unless the host refuses. -/
def writeUnless (d : Disk) (refusal : Option Refusal) (path : String) (contents : List Byte) :
    Disk × Except HostError Unit :=
  match refusal with
  | none => d.settle (d.write path contents)
  | some ⟨cause, none⟩ => (d, .error cause)
  | some ⟨cause, some n⟩ =>
    let (d', result) := d.settle (d.write path (contents.take n))
    (d', result >>= fun _ => .error cause)

/-- Remove a file, unless the host refuses. -/
def removeUnless (d : Disk) (refusal : Option Refusal) (path : String) :
    Disk × Except HostError Unit :=
  match refusal with
  | none => d.settle (d.remove path)
  | some refusal => (d, .error refusal.cause)

/-- A request that is settled without an error has changed the disk. -/
theorem settle_eq_ok_iff {result : Except HostError Disk} :
    d.settle result = (d', .ok ()) ↔ result = .ok d' := by
  cases result <;> simp [settle]

/-- A write succeeds exactly if neither the host nor the disk refuses it. -/
theorem writeUnless_eq_ok_iff {refusal : Option Refusal} :
    d.writeUnless refusal path contents = (d', .ok ()) ↔
      refusal = none ∧ d.write path contents = .ok d' := by
  rcases refusal with _ | ⟨cause, _ | n⟩
  · simp [writeUnless, settle_eq_ok_iff]
  · simp [writeUnless]
  · simp only [writeUnless]
    cases d.write path (contents.take n) <;> simp [settle, bind, Except.bind]

/-- A removal succeeds exactly if neither the host nor the disk refuses it. -/
theorem removeUnless_eq_ok_iff {refusal : Option Refusal} :
    d.removeUnless refusal path = (d', .ok ()) ↔ refusal = none ∧ d.remove path = .ok d' := by
  cases refusal with
  | none => simp [removeUnless, settle_eq_ok_iff]
  | some refusal => simp [removeUnless]

/-- Whatever is answered, the disk is as before or holds some file at the path. -/
theorem writeUnless_cases (d : Disk) (refusal : Option Refusal) (path : String)
    (contents : List Byte) :
    (d.writeUnless refusal path contents).1 = d ∨
      ∃ part, d.write path part = .ok (d.writeUnless refusal path contents).1 := by
  have hsettle (part : List Byte) : (d.settle (d.write path part)).1 = d ∨
      d.write path part = .ok (d.settle (d.write path part)).1 := by
    cases d.write path part with
    | error e => exact .inl rfl
    | ok d' => exact .inr rfl
  rcases refusal with _ | ⟨cause, _ | n⟩
  · exact (hsettle contents).imp_right fun h => ⟨_, h⟩
  · exact .inl rfl
  · exact (hsettle (contents.take n)).imp_right fun h => ⟨_, h⟩

/-- A file is still there when another one was written, or was not. -/
theorem exists_read_of_writeUnless {other : String} {written : List Byte}
    (h : d.read path = .ok contents) (refusal : Option Refusal) :
    ∃ contents', (d.writeUnless refusal other written).1.read path = .ok contents' := by
  obtain hsame | ⟨part, hpart⟩ := d.writeUnless_cases refusal other written
  · exact ⟨contents, by rw [hsame, h]⟩
  · exact ⟨_, read_of_write_other h hpart⟩

end Disk

namespace Tool

/-- What the host does with each request for a change, one after the other. -/
abbrev Refusals : Type := Nat → Option Refusal

/-- The requests behind the first one. -/
def Refusals.later (r : Refusals) : Refusals := fun n => r (n + 1)

/-- A computation on a host that may refuse changes. -/
abbrev Refusing (m : Type → Type) (α : Type) : Type := StateT Refusals m α

namespace Refusing

variable {m : Type → Type} [Monad m] [Host m]

/-- Write a file, unless the host refuses. -/
def write (refusal : Option Refusal) (path : String) (contents : List Byte) :
    m (Except HostError Unit) :=
  match refusal with
  | none => Host.write path contents
  | some ⟨cause, none⟩ => return .error cause
  | some ⟨cause, some n⟩ => do
    return (← Host.write path (contents.take n)) >>= fun _ => .error cause

/-- Remove a file, unless the host refuses. -/
def remove (refusal : Option Refusal) (path : String) : m (Except HostError Unit) :=
  match refusal with
  | none => Host.remove path
  | some refusal => return .error refusal.cause

/-- Hand a line to a turn that goes through refusals. -/
def turn {σ ρ : Type} (turn : σ → String → Refusing m (σ ⊕ ρ)) (s : σ × Refusals) (line : String) :
    m ((σ × Refusals) ⊕ (ρ × Refusals)) := do
  match ← turn s.1 line s.2 with
  | (.inl s, r) => return .inl (s, r)
  | (.inr a, r) => return .inr (a, r)

instance : Host (Refusing m) where
  report e := StateT.lift (Host.report e)
  reportProgram e := StateT.lift (Host.reportProgram e)
  printLine line := StateT.lift (Host.printLine line)
  read path := StateT.lift (Host.read path)
  write path contents := fun r => do return (← Refusing.write (r 0) path contents, r.later)
  remove path := fun r => do return (← Refusing.remove (r 0) path, r.later)
  isPresent path := StateT.lift (Host.isPresent path)
  createDirectories path := StateT.lift (Host.createDirectories path)
  programFiles root := StateT.lift (Host.programFiles root)
  foldLines step s := fun r => do
    match ← Host.foldLines (turn step) (s, r) with
    | .inl (s, r) => return (.inl s, r)
    | .inr (a, r) => return (.inr a, r)

end Refusing

/-! ## Requests on a world -/

open World

variable {α β : Type} {r r' : Refusals} {w w' : World}

/-- A change of the disk leaves the rest of the world. -/
theorem World.onDisk_eq (f : Disk → Except HostError Disk) (w : World) :
    onDisk f w = ((w.disk.settle (f w.disk)).2, { w with disk := (w.disk.settle (f w.disk)).1 }) := by
  rw [onDisk]
  cases f w.disk <;> rfl

namespace Refusing

theorem write_eq (refusal : Option Refusal) (path : String) (contents : List Byte) (w : World) :
    (write refusal path contents : Act _) w =
      ((w.disk.writeUnless refusal path contents).2,
        { w with disk := (w.disk.writeUnless refusal path contents).1 }) := by
  rcases refusal with _ | ⟨cause, _ | n⟩
  · exact onDisk_eq (·.write path contents) w
  · rfl
  · exact World.bind_eq (onDisk_eq (·.write path (contents.take n)) w)
      fun result => pure (result >>= fun _ => (.error cause : Except HostError Unit))

theorem remove_eq (refusal : Option Refusal) (path : String) (w : World) :
    (remove refusal path : Act _) w =
      ((w.disk.removeUnless refusal path).2,
        { w with disk := (w.disk.removeUnless refusal path).1 }) := by
  rcases refusal with _ | refusal
  · exact onDisk_eq (·.remove path) w
  · rfl

theorem bind_eq {x : Refusing Act α} {a : α} (h : x r w = ((a, r'), w')) (f : α → Refusing Act β) :
    (x >>= f) r w = f a r' w' :=
  World.bind_eq h fun p => f p.1 p.2

end Refusing

/-- A write leaves the disk as its answer says, and the rest of the host as it is. -/
theorem run_write (path : String) (contents : List Byte) (r : Refusals) (w : World) :
    (Host.write path contents : Refusing Act _) r w =
      (((w.disk.writeUnless (r 0) path contents).2, r.later),
        { w with disk := (w.disk.writeUnless (r 0) path contents).1 }) :=
  World.bind_eq (Refusing.write_eq (r 0) path contents w) fun result => pure (result, r.later)

/-- A removal leaves the disk as its answer says, and the rest of the host as it
is. -/
theorem run_remove (path : String) (r : Refusals) (w : World) :
    (Host.remove path : Refusing Act _) r w =
      (((w.disk.removeUnless (r 0) path).2, r.later),
        { w with disk := (w.disk.removeUnless (r 0) path).1 }) :=
  World.bind_eq (Refusing.remove_eq (r 0) path w) fun result => pure (result, r.later)

/-! ## Tasks with refusals -/

/-- What a task answers, and the disk it leaves. -/
def outcome (x : Task (Refusing Act) α) (r : Refusals) (w : World) : Except Error α × Disk :=
  ((x.run r w).1.1, (x.run r w).2.disk)

/-- The rest of a task runs on what the first step answers and leaves. -/
theorem run_bind {x : Task (Refusing Act) α} {result : Except Error α}
    (h : x.run r w = ((result, r'), w')) (f : α → Task (Refusing Act) β) :
    (x >>= f).run r w = (ExceptT.bindCont f result : Refusing Act _) r' w' :=
  Refusing.bind_eq h (ExceptT.bindCont f)

/-- After a success, the rest of a task decides. -/
theorem outcome_bind_ok {x : Task (Refusing Act) α} {a : α}
    (h : x.run r w = ((.ok a, r'), w')) (f : α → Task (Refusing Act) β) :
    outcome (x >>= f) r w = outcome (f a) r' w' := by
  rw [outcome, run_bind h]
  rfl

/-- After a failure, nothing more is done. -/
theorem outcome_bind_error {x : Task (Refusing Act) α} {e : Error}
    (h : x.run r w = ((.error e, r'), w')) (f : α → Task (Refusing Act) β) :
    outcome (x >>= f) r w = (.error e, w'.disk) := by
  rw [outcome, run_bind h]
  rfl

theorem run_report (e : Event) (r : Refusals) (w : World) :
    (report e : Task (Refusing Act) Unit).run r w = ((.ok (), r), { w with log := w.log.push e }) :=
  rfl

theorem run_lift {x : Refusing Act α} {a : α} (h : x r w = ((a, r'), w')) :
    (ExceptT.lift x : Task (Refusing Act) α).run r w = ((.ok a, r'), w') :=
  Refusing.bind_eq h fun a => pure (Except.ok a)

/-- A request hands its answer on, an error with its context. -/
theorem run_request {x : Refusing Act (Except HostError Unit)} {result : Except HostError Unit}
    (h : x r w = ((result, r'), w')) (error : HostError → Error) :
    (request x error : Task (Refusing Act) Unit).run r w = ((result.mapError error, r'), w') := by
  rw [request, run_bind (run_lift h)]
  cases result <;> rfl

end Tool

end StackRisc
