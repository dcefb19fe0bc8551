import BcmPcie.Irq.LibraryCalls
import BcmPcie.Library.Simulations

/-! # What the interrupt layer is for

Every device has vectors of its own, and a server on each that has been given one. A message for a
vector waits until there is an interrupt, and an interrupt calls the servers of the vectors that messages
wait for. Nothing is shared: there are no slots here, and no device sees what another one does.

* `Attachment`, `Client`, `Service` — the state of the service.
* `Service.Answers` — what a library call may do and answer.
* `Service.Step` — the service as a system, with messages and interrupts. -/

namespace BcmPcie

variable {ι σ : Type*}

/-! ## One device -/

/-- A server on a vector: a message may wait for it, and it may be held back. -/
structure Attachment where
  server : Interrupt
  pending : Bool
  held : Bool
  deriving DecidableEq, Repr

/-- What a device has of the service: its vectors, signalled by messages or by the level of a line, and
what is attached to them. -/
@[ext] structure Client where
  nvec : ℕ
  messages : Bool
  vecs : ℕ → Option Attachment

namespace Client

/-- Vectors without servers. -/
def fresh (n : ℕ) (messages : Bool) : Client := ⟨n, messages, fun _ => none⟩

/-- No vectors. -/
def idle : Client := fresh 0 false

variable (c : Client) (v : ℕ)

/-- The client with another attachment on a vector. -/
def setVec (a : Option Attachment) : Client := { c with vecs := Function.update c.vecs v a }

/-- A server is put on a vector; nothing waits for it. -/
def attach (server : Interrupt) : Client := c.setVec v (some ⟨server, false, false⟩)

/-- A server is taken from a vector, if it is the vector's. -/
def detach (server : Interrupt) : Client :=
  if (c.vecs v).map (·.server) = some server then c.setVec v none else c

/-- A vector is held back or let through; the line of a device is not the service's to hold. -/
def hold (held : Bool) : Client :=
  if c.messages then c.setVec v ((c.vecs v).map fun a => { a with held := held }) else c

variable {c v} in
/-- There is nothing to hold on a vector without a server. -/
theorem hold_of_none (h : c.vecs v = none) (held : Bool) : c.hold v held = c := by
  unfold hold
  split
  · rw [h]
    exact Client.ext rfl rfl (by rw [setVec, Option.map_none, ← h, Function.update_eq_self])
  · rfl

/-- A message comes for a vector. It waits for the vector's server, if there is one. -/
def signal : Client := c.setVec v ((c.vecs v).map fun a => { a with pending := true })

/-- No message waits any more. -/
def served : Client := { c with vecs := fun v => (c.vecs v).map fun a => { a with pending := false } }

end Client

/-! ## All devices -/

/-- The state of the service: every device has its own. -/
abbrev Service (ι : Type*) := ι → Client

/-- What a library call answers: nothing, a code or a flag. -/
inductive Answer
  | done
  | code (r : ℤ)
  | flag (b : Bool)
  deriving DecidableEq, Repr

/-- What is seen of the service: a call with its answer, a message for a vector, an interrupt with the
servers that are called. -/
inductive ServiceLabel (ι : Type*)
  | call (c : LibCall ι) (answer : Answer)
  | message (dev : ι) (vec : ℕ)
  | interrupt (calls : List Interrupt)

namespace Service

variable [DecidableEq ι] (S : Service ι)

/-- The vectors of an allocation: as many as were asked for, of a type that was allowed. -/
def Grants (i : ι) (min max : ℕ) (flags : BitVec 32) (n : ℕ) (S' : Service ι) : Prop :=
  (S i).nvec = 0 ∧ 1 ≤ n ∧ min ≤ n ∧ n ≤ max ∧
    ((flags &&& pciIrqMsix ≠ 0 ∨ flags &&& pciIrqMsi ≠ 0) ∧
        S' = Function.update S i (.fresh n true) ∨
      (flags &&& pciIrqIntx ≠ 0 ∧ n = 1) ∧ S' = Function.update S i (.fresh n false))

/-- A call for a vector that the device has. -/
def Holds (i : ι) (v : ℕ) (held b : Bool) (S' : Service ι) : Prop :=
  b = decide (v < (S i).nvec) ∧ S' = Function.update S i ((S i).hold v held)

/-- What a library call may do to the service, and answer. A call that fails does nothing; the obsolete
removal of a server takes all vectors of the device along. -/
def Answers : LibCall ι → Answer → Service ι → Prop
  | .vector (.allocIntVectors (some i) min max flags), .code r, S' =>
    r < 0 ∧ S' = S ∨ ∃ n : ℕ, r = n ∧ S.Grants i min max flags n S'
  | .vector (.freeIntVectors (some i)), .done, S' => S' = Function.update S i .idle
  | .vector (.addIntVectorServer (some i) v (some server)), .code r, S' =>
    r < 0 ∧ S' = S ∨
      r = 0 ∧ v < (S i).nvec ∧ (S i).vecs v = none ∧
        S' = Function.update S i ((S i).attach v server)
  | .vector (.remIntVectorServer (some i) v (some server)), .done, S' =>
    S' = Function.update S i ((S i).detach v server)
  | .vector (.maskIntVector (some i) v), .flag b, S' => S.Holds i v true b S'
  | .vector (.unmaskIntVector (some i) v), .flag b, S' => S.Holds i v false b S'
  | .addIntServer (some server) (some i), .flag b, S' =>
    b = false ∧ S' = S ∨
      b = true ∧ (S i).nvec = 0 ∧
        ∃ messages, S' = Function.update S i ((Client.fresh 1 messages).attach 0 server)
  | .remIntServer (some _) (some i), .done, S' => S' = Function.update S i .idle
  | .maskMSI (some i), .flag b, S' => S.Holds i 0 true b S'
  | .unmaskMSI (some i), .flag b, S' => S.Holds i 0 false b S'
  | .enableMSI _, .code r, S' => r ≤ 0 ∧ S' = S
  | .disableMSI _, .done, S' => S' = S
  | .checkSetINTxMask dev _, .flag b, S' => b = dev.isSome ∧ S' = S
  -- null arguments
  | .vector (.allocIntVectors none _ _ _), .code r, S' => r < 0 ∧ S' = S
  | .vector (.freeIntVectors none), .done, S' => S' = S
  | .vector (.addIntVectorServer _ _ _), .code r, S' => r < 0 ∧ S' = S
  | .vector (.remIntVectorServer _ _ _), .done, S' => S' = S
  | .vector (.maskIntVector none _), .flag b, S' => b = false ∧ S' = S
  | .vector (.unmaskIntVector none _), .flag b, S' => b = false ∧ S' = S
  | .addIntServer _ _, .flag b, S' => b = false ∧ S' = S
  | .remIntServer _ _, .done, S' => S' = S
  | .maskMSI none, .flag b, S' => b = false ∧ S' = S
  | .unmaskMSI none, .flag b, S' => b = false ∧ S' = S
  | _, _, _ => False

omit [DecidableEq ι] in
/-- A vector that a message waits for, with its server. -/
def Due (q : ι × ℕ) (server : Interrupt) : Prop :=
  ∃ a, (S q.1).vecs q.2 = some a ∧ a.server = server ∧ a.pending = true

/-- One step of the service. An interrupt calls the server of every vector that a message waits for,
once, and no other. -/
def Step : Simulations.System (Service ι) (ServiceLabel ι)
  | S, .call c answer, S' => S.Answers c answer S'
  | S, .message i v, S' => v < (S i).nvec ∧ (S i).messages = true ∧
      S' = Function.update S i ((S i).signal v)
  | S, .interrupt calls, S' =>
    ∃ due : List ((ι × ℕ) × Interrupt), (due.map (·.1)).Nodup ∧
      (∀ q server, (q, server) ∈ due ↔ S.Due q server) ∧ calls = due.map (·.2) ∧
        S' = fun i => (S i).served

end Service

end BcmPcie
