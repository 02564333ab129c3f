import TenantVault.Service.World

/-! # Calls that wait

An operation may have to ask a signer or a key service, or to draw random octets. It then stops with its
request and goes on in whatever world it finds when the reply comes, since other operations may have run
in between. Until it finishes it has changed nothing, and it finishes with a world and an answer or a
failure.
-/

namespace TenantVault

/-- What can be asked of the signer and the key service. -/
inductive Request where
  | sign (label : Bytes) (path : List Bytes) (message : Bytes)
  | publicKey (label : Bytes) (path : List Bytes)
  | servicePublicKey (context : List Bytes)
  | serviceKey (context : List Bytes) (inputId transportKey : Bytes)
  deriving DecidableEq

/-- Why no reply comes. -/
inductive Refusal where
  /-- There is no such service. -/
  | notConfigured
  /-- The signer or service says that it is switched off. -/
  | disabled
  | failed (detail : String)
  deriving DecidableEq

abbrev Reply := Except Refusal Bytes

def Request.failure (q : Request) : Refusal → Failure
  | .notConfigured => .crypto .noKeyService
  | .disabled => .disabled .signer
  | .failed detail => .crypto (match q with
    | .sign .. => .signing detail
    | .publicKey .. => .publicKey detail
    | .servicePublicKey .. => .servicePublicKey detail
    | .serviceKey .. => .serviceKey detail)

inductive Outcome (α : Type) where
  | done (w : World) (result : Result α)
  | ask (request : Request) (resume : World → Reply → Outcome α)
  | draw (size : Nat) (resume : World → Bytes → Outcome α)

abbrev Call (α : Type) := World → Outcome α

namespace Outcome

variable {α β : Type}

def fail (w : World) (why : Failure) : Outcome α := done w (.error why)

def finish (w : World) (a : α) : Outcome α := done w (.ok a)

/-- Goes on with a result unless it is a failure. -/
def after (w : World) (r : Result β) (next : β → Outcome α) : Outcome α :=
  match r with
  | .ok b => next b
  | .error why => fail w why

/-- Asks and goes on with the reply unless it is a refusal. -/
def request (q : Request) (next : World → Bytes → Outcome α) : Outcome α :=
  ask q fun w reply => match reply with
    | .ok bs => next w bs
    | .error refusal => fail w (q.failure refusal)

/-- The same course of events with another form of the answer. -/
def map (f : α → β) : Outcome α → Outcome β
  | done w (.ok a) => finish w (f a)
  | done w (.error why) => fail w why
  | ask q resume => ask q fun w reply => map f (resume w reply)
  | draw size resume => draw size fun w random => map f (resume w random)

/-- Runs a call to its end in a world that nothing else changes. -/
def run (answer : Request → Reply) (random : Nat → Bytes) (w : World) : Outcome α → World × Result α
  | done w r => (w, r)
  | ask q resume => run answer random w (resume w (answer q))
  | draw size resume => run answer random w (resume w (random size))

end Outcome

namespace Call

variable {α : Type}

/-- A call that gives new tables with its answer, or fails and changes nothing. -/
def update (f : Tables → Result (Tables × α)) : Call α := fun w =>
  .after w (f w.tables) fun (tables, a) => .finish (w.withTables tables) a

/-- A call that changes nothing if it is refused, and may still fail after it has changed the tables. -/
def settle (f : Tables → Result (Tables × Result α)) : Call α := fun w =>
  .after w (f w.tables) fun (tables, r) => .done (w.withTables tables) r

/-- A call that only looks at the tables. -/
def query (f : Tables → Result α) : Call α := fun w => .after w (f w.tables) (.finish w)

end Call

end TenantVault
