/-
The PostgreSQL connection adapter of `postgres_persistence.py`.

`_PostgresConnectionAdapter` wraps one driver connection that is not in autocommit mode.
It translates a statement written for SQLite, and it nests: `with adapter:` may stand inside
`with adapter:`, and only the outermost exit commits or rolls back.  `_depth` counts the open
contexts and `_rollback_only` remembers that something inside went wrong.

What the driver answers is not the adapter's to decide.  A `Fate` says of each statement,
given every call the connection has seen so far, whether it succeeds; a database that refuses
every statement after a failed one is one such fate.

The callers are programs built from statements, sequencing, nested contexts and
`try`/`except`.
-/
import Mathlib.Data.List.Infix

namespace InvestmentPlatform

/-- `str.replace` for a non-empty pattern, from a position `skip` characters into a match. -/
def replaceFrom (old new : List Char) : Nat → List Char → List Char
  | _, [] => []
  | skip + 1, _ :: rest => replaceFrom old new skip rest
  | 0, c :: rest =>
      if old.isPrefixOf (c :: rest) then
        new ++ replaceFrom old new (old.length - 1) rest
      else
        c :: replaceFrom old new 0 rest

def pyReplace (text old new : String) : String :=
  String.ofList (replaceFrom old.toList new.toList 0 text.toList)

namespace Adapter

/-- The statement `execute` sends for a SQLite statement. -/
def translate (sql : String) : String :=
  let statement := pyReplace sql "?" "%s"
  if "INSERT OR IGNORE INTO".toList <:+: statement.toList then
    pyReplace statement "INSERT OR IGNORE INTO" "INSERT INTO" ++ " ON CONFLICT DO NOTHING"
  else statement

example : translate "INSERT OR IGNORE INTO t VALUES (?, ?)" =
    "INSERT INTO t VALUES (%s, %s) ON CONFLICT DO NOTHING" := by rfl

variable {P : Type}

/-- A statement with its parameters. -/
structure Statement (P : Type) where
  sql : String
  params : P
  deriving DecidableEq, Repr

/-- A call of the driver, as the connection saw it. -/
inductive Call (P : Type) where
  | executed (statement : Statement P)
  | failed (statement : Statement P)
  | committed
  | rolledBack
  deriving DecidableEq, Repr

/-- Does the next statement succeed, after these calls? -/
abbrev Fate (P : Type) := List (Call P) → Statement P → Bool

/-- The driver connection: its calls, oldest first, what it has made durable and what the open
transaction holds. -/
structure Connection (P : Type) where
  journal : List (Call P)
  durable : List (Statement P)
  pending : List (Statement P)
  deriving DecidableEq, Repr

inductive Raised where
  | databaseError
  /-- `RuntimeError('PERSISTENCE_TRANSACTION_ABORTED')` -/
  | transactionAborted
  deriving DecidableEq, Repr

namespace Connection

def execute (fate : Fate P) (connection : Connection P) (statement : Statement P) :
    Option Raised × Connection P :=
  if fate connection.journal statement then
    (none, { connection with
      journal := connection.journal ++ [.executed statement]
      pending := connection.pending ++ [statement] })
  else
    (some .databaseError, { connection with
      journal := connection.journal ++ [.failed statement] })

def commit (connection : Connection P) : Connection P :=
  { journal := connection.journal ++ [.committed]
    durable := connection.durable ++ connection.pending
    pending := [] }

def rollback (connection : Connection P) : Connection P :=
  { connection with
    journal := connection.journal ++ [.rolledBack]
    pending := [] }

end Connection

end Adapter

/-- `_PostgresConnectionAdapter`. -/
structure Adapter (P : Type) where
  connection : Adapter.Connection P
  depth : Int := 0
  rollbackOnly : Bool := false
  deriving DecidableEq, Repr

namespace Adapter

variable {P : Type}

def execute (fate : Fate P) (sql : String) (params : P) (adapter : Adapter P) :
    Option Raised × Adapter P :=
  match adapter.connection.execute fate ⟨translate sql, params⟩ with
  | (none, connection) => (none, { adapter with connection })
  | (some raised, connection) =>
      -- a statement of its own clears the aborted state at once; inside a context the flag
      -- waits for the outermost exit
      if adapter.depth ≠ 0 then
        (some raised, { adapter with connection, rollbackOnly := true })
      else
        (some raised, { adapter with connection := connection.rollback })

/-- `__enter__`. -/
def enter (adapter : Adapter P) : Adapter P :=
  { adapter with depth := adapter.depth + 1 }

/-- `__exit__`, which never swallows: the exception it is given goes on, and it may raise one
itself. -/
def exit (raised : Option Raised) (adapter : Adapter P) : Option Raised × Adapter P :=
  let rollbackOnly := adapter.rollbackOnly || raised.isSome
  let depth := adapter.depth - 1
  if depth = 0 then
    if rollbackOnly then
      (raised.or (some .transactionAborted),
        { connection := adapter.connection.rollback, depth, rollbackOnly := false })
    else
      (raised, { connection := adapter.connection.commit, depth, rollbackOnly := false })
  else (raised, { adapter with depth, rollbackOnly })

/-- The callers of the adapter. -/
inductive Program (P : Type) where
  | skip
  | execute (sql : String) (params : P)
  | seq (first next : Program P)
  /-- `with adapter: body` -/
  | block (body : Program P)
  /-- `try: body` / `except Exception: handler` -/
  | attempt (body handler : Program P)
  deriving DecidableEq, Repr

/-- What a program does to the adapter, and the exception it lets out. -/
def run (fate : Fate P) : Program P → Adapter P → Option Raised × Adapter P
  | .skip, adapter => (none, adapter)
  | .execute sql params, adapter => adapter.execute fate sql params
  | .seq first next, adapter =>
      match run fate first adapter with
      | (none, adapter') => run fate next adapter'
      | (some raised, adapter') => (some raised, adapter')
  | .block body, adapter =>
      let (raised, inside) := run fate body adapter.enter
      inside.exit raised
  | .attempt body handler, adapter =>
      match run fate body adapter with
      | (none, adapter') => (none, adapter')
      | (some _, adapter') => run fate handler adapter'

/-- A statement or a context that did not get through. -/
inductive Failure (P : Type) where
  | statement (statement : Statement P)
  | block (body : Program P)
  deriving DecidableEq, Repr

/-- The statements and contexts that fail while a program runs, in order. -/
def failures (fate : Fate P) : Program P → Adapter P → List (Failure P)
  | .skip, _ => []
  | .execute sql params, adapter =>
      if (adapter.execute fate sql params).1.isSome then
        [.statement ⟨translate sql, params⟩]
      else []
  | .seq first next, adapter =>
      match run fate first adapter with
      | (none, adapter') => failures fate first adapter ++ failures fate next adapter'
      | (some _, _) => failures fate first adapter
  | .block body, adapter =>
      failures fate body adapter.enter ++
        if (run fate (.block body) adapter).1.isSome then [.block body] else []
  | .attempt body handler, adapter =>
      match run fate body adapter with
      | (none, _) => failures fate body adapter
      | (some _, adapter') => failures fate body adapter ++ failures fate handler adapter'

/-- The outermost contexts a run comes to: the adapter it finds and the body. -/
def outermostBlocks (fate : Fate P) : Program P → Adapter P → List (Adapter P × Program P)
  | .skip, _ => []
  | .execute _ _, _ => []
  | .seq first next, adapter =>
      match run fate first adapter with
      | (none, adapter') => outermostBlocks fate first adapter ++ outermostBlocks fate next adapter'
      | (some _, _) => outermostBlocks fate first adapter
  | .block body, adapter => [(adapter, body)]
  | .attempt body handler, adapter =>
      match run fate body adapter with
      | (none, _) => outermostBlocks fate body adapter
      | (some _, adapter') =>
          outermostBlocks fate body adapter ++ outermostBlocks fate handler adapter'

/-- A call made for a statement, not for the transaction. -/
def Call.IsStatement : Call P → Prop
  | .executed _ => True
  | .failed _ => True
  | .committed => False
  | .rolledBack => False

def Call.executed? : Call P → Option (Statement P)
  | .executed statement => some statement
  | _ => none

end Adapter

end InvestmentPlatform
