import Haystack.Filter.Cache

/-!
What a server answers: which operations it has, what it is, and rows of a grid that it holds.

An operation that a provider does not have is refused by its name.
-/
namespace Haystack

/-- The operations that a server may declare, in the order in which they are listed. -/
inductive Capability where
  | about
  | ops
  | formats
  | read
  | nav
  | watchSub
  | watchUnsub
  | watchPoll
  | pointWrite
  | hisRead
  | hisWrite
  | invokeAction
deriving DecidableEq

namespace Capability

def all : List Capability :=
  [.about, .ops, .formats, .read, .nav, .watchSub, .watchUnsub, .watchPoll, .pointWrite, .hisRead,
    .hisWrite, .invokeAction]

/-- The name in requests. -/
def name : Capability → String
  | .about => "about"
  | .ops => "ops"
  | .formats => "formats"
  | .read => "read"
  | .nav => "nav"
  | .watchSub => "watchSub"
  | .watchUnsub => "watchUnsub"
  | .watchPoll => "watchPoll"
  | .pointWrite => "pointWrite"
  | .hisRead => "hisRead"
  | .hisWrite => "hisWrite"
  | .invokeAction => "invokeAction"

def summary : Capability → String
  | .about => "Summary information for server"
  | .ops => "Operations supported by this server"
  | .formats => "Grid data formats supported by this server"
  | .read => "The read op is used to read a set of entity records either by their unique " ++
      "identifier or using a filter."
  | .nav => "The nav op is used navigate a project for learning and discovery"
  | .watchSub => "The watch_sub operation is used to create new watches or add entities to an " ++
      "existing watch."
  | .watchUnsub => "The watch_unsub operation is used to close a watch entirely or remove " ++
      "entities from a watch."
  | .watchPoll => "The watch_poll operation is used to poll a watch for changes to the " ++
      "subscribed entity records."
  | .pointWrite => "The point_write_read op is used to: read the current status of a writable " ++
      "point's priority array or write to a given level"
  | .hisRead => "The his_read op is used to read a time-series data from historized point."
  | .hisWrite => "The his_write op is used to post new time-series data to a historized point."
  | .invokeAction => "The invoke_action op is used to invoke a user action on a target record."

def named? (text : String) : Option Capability := all.find? (·.name == text)

/-- The place in the list of all. -/
def rank (capability : Capability) : Nat := all.idxOf capability

end Capability

structure Provider where
  name : String
  capabilities : List Capability
  zone : Zone := .utc

namespace Provider

/-- The answer to an operation that a provider does not have. -/
def refusal (provider : Provider) (capability : Capability) : Error :=
  .unsupportedOperation (.notImplemented provider.name capability.name)

def productName : String := "hsgrid"

def productVersion : String := "0.1.0"

/-- A grid of version 3.0 whose columns have no metadata. -/
def table (columns : List String) (rows : List Entity) : Grid :=
  { GridOf.withVersion .three with
    columns := .ofList (columns.map fun name => (name, .empty))
    rows }

/-- What a provider is, as of now. -/
def about (provider : Provider) (home : String) (now : Instant) : Grid :=
  let tags : List (String × Value) :=
    [("haystackVersion", .str Version.latest.text), ("tz", .str provider.zone.shortName),
      ("serverName", .str provider.name), ("serverTime", .dateTime ⟨now, provider.zone⟩),
      ("productName", .str productName), ("productUri", .uri home),
      ("productVersion", .str productVersion), ("moduleName", .str provider.name),
      ("moduleVersion", .str productVersion)]
  table (tags.map (·.1)) [.ofList tags]

/-- The declared operations, each once and in order; every provider has `about` and `ops`. -/
def declared (provider : Provider) : List Capability :=
  Capability.all.filter fun capability =>
    capability == .about || capability == .ops || provider.capabilities.contains capability

/-- The declared operations with what they are for. -/
def ops (provider : Provider) : Grid :=
  table ["name", "summary"] (provider.declared.map fun capability =>
    .ofList [("name", .str capability.name), ("summary", .str capability.summary)])

end Provider

/-! ## Grids that are served -/

/-- What to read: rows by their ids, or those that a filter keeps. -/
structure ReadRequest where
  ids : List Ref := []
  filter : Option String := none
  limit : Option Nat := none
  /-- The columns to keep or drop. -/
  selection : Option String := none

structure GridProvider where
  name : String
  grid : Grid

namespace GridProvider

def provider (server : GridProvider) : Provider := { name := server.name, capabilities := [.read] }

/-- The rows of ids, in the order of the ids; those that there are none of are left out. -/
def rowsOf (grid : Grid) (ids : List Ref) : Except Error Grid :=
  match (GridOf.extend (ids.filterMap grid.rowOf?)).apply grid.emptyLike with
  | (.ok _, found) => .ok found
  | (.error refusal, _) => .error refusal

/-- Answer a request. With ids, the filter and the limit have no meaning. -/
def read (server : GridProvider) (request : ReadRequest) :
    ExceptT Error (StateM FilterCache) Grid := do
  let rows ←
    if request.ids.isEmpty then
      FilterCache.filter server.grid (request.filter.getD "") request.limit
    else liftExcept (rowsOf server.grid request.ids)
  match request.selection with
  | some selection => liftExcept (rows.select selection)
  | none => pure rows

end GridProvider

end Haystack
