import SpsAssembler.Toml.Tokens
import Std.Data.HashMap
import Std.Data.HashSet

/-!
# The tables of a TOML document

A document is put together token by token. Its tables are numbered, the outermost one is table 0,
and a name in a table stands for a value or for the number of another table. A key has one value,
but a table that only stood on the way to another may be given later, and an array may be given
again.

* `Toml.Slot`, `Toml.Table`: what names stand for;
* `Toml.Way`: the names on the way to a table or a value;
* `Toml.Document`, `Toml.Document.put`: the tables, and giving a name its value;
* `Toml.Context`, `Toml.Document.enter`, `Toml.Document.openTable`: the table that is open;
* `Toml.Document.note`, `Toml.Document.keys`: the keys that were given;
* `Toml.Builder`, `Toml.Builder.step`: putting a document together;
* `Toml.parse`: the document of a text.
-/

namespace SpsAssembler.Toml

/-- What a name stands for: a value, an array of values, a table, or an array of tables, of which
only the last is open. -/
inductive Slot where
  | scalar (s : Scalar)
  | array
  | table (id : Nat)
  | tables (last : Nat)
  deriving DecidableEq, Repr

/-- The table that is open inside. -/
def Slot.inside? : Slot → Option Nat
  | table id => some id
  | tables last => some last
  | _ => none

/-- A table: its names, the last one first, and what they stand for. -/
structure Table where
  names : List Text := []
  slots : Std.HashMap Text Slot := {}

namespace Table

/-- Gives a name what it stands for. -/
def set (t : Table) (name : Text) (slot : Slot) : Table where
  names := if t.slots.contains name then t.names else name :: t.names
  slots := t.slots.insert name slot

/-- The names in the order they were given, with what they stand for. -/
def entries (t : Table) : List (Text × Slot) :=
  t.names.reverse.filterMap fun name => (t.slots.get? name).map fun slot => (name, slot)

end Table

/-- The way to a table or a value: how many names it has, and the names, from the one inside
outwards. A number that is made of all the names comes with it, so that a long way is found in a set
as fast as a short one. -/
structure Way where
  code : UInt64 := 0
  depth : Nat := 0
  names : List Text := []
  deriving DecidableEq

namespace Way

/-- The way to a name in the table at the end of a way. -/
def push (w : Way) (name : Text) : Way where
  code := mixHash w.code (hash name)
  depth := w.depth + 1
  names := name :: w.names

/-- The names from the outermost inwards. -/
def key (w : Way) : Key := w.names.reverse

instance : Hashable Way where
  hash := code

end Way

/-- A row of names with room for a number of them: those of a way, and more behind them. -/
structure Row where
  start : Way
  added : Array Text := #[]
  room : Nat

/-- A key that was given: by itself, or as the first names of a row. -/
inductive Note where
  | own (key : Key)
  | shared (row size : Nat)

/-- A document that is put together: its tables, the ways on which tables were only passed, the ways
to arrays, and the keys that were given, the last one first, with the rows that they share. -/
structure Document where
  tables : Array Table := #[{}]
  passed : Std.HashSet Way := {}
  arrays : Std.HashSet Way := {}
  rows : Array Row := #[{ start := {}, room := 0 }]
  notes : List Note := []

/-- The table that is open: the way to it, its number unless its name stands for something else, and
its names as the start of a row. -/
structure Context where
  way : Way := {}
  table? : Option Nat := some 0
  row : Nat := 0
  size : Nat := 0

namespace Document

/-- What a name in a table stands for. -/
def slot? (d : Document) (id : Nat) (name : Text) : Option Slot :=
  d.tables[id]?.bind fun t => t.slots.get? name

/-- Gives a name in a table what it stands for. -/
def set (d : Document) (id : Nat) (name : Text) (slot : Slot) : Document :=
  { d with tables := d.tables.modify id fun t => t.set name slot }

/-- A new table, and its number. -/
def newTable (d : Document) : Document × Nat :=
  let id := d.tables.size
  ({ d with tables := d.tables.push {} }, id)

/-- Notes that a table was only passed. -/
def pass (d : Document) (way : Way) : Document := { d with passed := d.passed.insert way }

/-- Gives a name in the table at the end of a way its value. An array may be given again, and a
table that was only passed keeps what is inside. -/
def put (d : Document) (c : Context) (name : Text) (slot : Slot) : Option Document :=
  match c.table? with
  | none => none
  | some id =>
    let way := c.way.push name
    if (d.slot? id name).isNone then some (d.set id name slot)
    else if d.arrays.contains way then
      some ({ d with passed := d.passed.erase way }.set id name slot)
    else if d.passed.contains way then some { d with passed := d.passed.erase way }
    else none

/-- Notes whether a name of a context is an array. The context itself has no name. -/
def setKind (d : Document) (c : Context) (name : Text) (isArray : Bool) : Document :=
  let way := if name.isEmpty && c.way.depth != 0 then c.way else c.way.push name
  { d with arrays := if isArray then d.arrays.insert way else d.arrays.erase way }

/-! ## Keys -/

/-- The room of a row that takes the place of a full one. -/
def grown (room : Nat) : Nat := if room = 0 then 1 else 2 * room

/-- A row of its own for the names of a way. -/
def newRow (d : Document) (way : Way) (room : Nat) : Document × Nat :=
  let row := d.rows.size
  ({ d with rows := d.rows.push { start := way, room } }, row)

/-- Whether the row of a context has room for one name more. -/
def hasRoom (d : Document) (c : Context) : Bool :=
  (d.rows[c.row]?.map fun row => decide (c.size < row.room)).getD false

/-- Writes a name behind those of a context; a name that stands there is overwritten. -/
def write (d : Document) (c : Context) (name : Text) : Document :=
  { d with
    rows := d.rows.modify c.row fun row =>
      let place := c.size - row.start.depth
      { row with
        added :=
          if place < row.added.size then row.added.set! place name else row.added.push name } }

/-- Writes a name behind those of a context if there is room. -/
def claim (d : Document) (c : Context) (name : Text) : Document :=
  if d.hasRoom c then d.write c name else d

/-- The context with one name more, in its row if there is room. -/
def extend (d : Document) (c : Context) (name : Text) : Document × Context :=
  let way := c.way.push name
  if d.hasRoom c then (d.write c name, { c with way, size := c.size + 1 })
  else
    let (d, row) := d.newRow way (grown c.size)
    (d, { way, table? := none, row, size := c.size + 1 })

/-- Notes the key of a name in a context. While the row of the context has room the key is kept
there, so that the next key of the context takes its place. -/
def note (d : Document) (c : Context) (name : Text) : Document :=
  if d.hasRoom c then
    let d := d.write c name
    { d with notes := .shared c.row (c.size + 1) :: d.notes }
  else { d with notes := .own (c.way.push name).key :: d.notes }

/-- Notes a key by itself. -/
def noteOwn (d : Document) (key : Key) : Document := { d with notes := .own key :: d.notes }

/-- A key that was noted. -/
def keyOf (d : Document) : Note → Key
  | .own key => key
  | .shared row size =>
    (d.rows[row]?.map fun r =>
      r.start.key ++ (r.added.extract 0 (size - r.start.depth)).toList).getD []

/-- The keys that were given, in their order. -/
def keys (d : Document) : List Key := d.notes.reverse.map d.keyOf

/-! ## Tables -/

/-- The context of a name in a table, with a row of its own. -/
def contextOf (d : Document) (c : Context) (id : Nat) (name : Text) : Document × Context :=
  let way := c.way.push name
  let (d, row) := d.newRow way (grown c.way.depth)
  (d, { way, table? := (d.slot? id name).bind Slot.inside?, row, size := way.depth })

/-- Opens the table of a name in a context. -/
def enter (d : Document) (c : Context) (name : Text) : Option (Document × Context) :=
  match c.table? with
  | none => none
  | some id =>
    let (d, inner) := d.newTable
    (d.put c name (.table inner)).map fun d => d.contextOf c id name

/-- Opens the next table of the array of a name in a context. -/
def enterNext (d : Document) (c : Context) (name : Text) : Option (Document × Context) :=
  match c.table? with
  | none => none
  | some id =>
    match d.slot? id name with
    | none | some (.tables _) =>
      let (d, inner) := d.newTable
      some ((d.set id name (.tables inner)).contextOf c id name)
    | some _ => none

/-- The context at the end of a way, passing the tables on it. -/
def passTo : Document → Context → Key → Option (Document × Context)
  | d, c, [] => some (d, c)
  | d, c, name :: rest =>
    match c.table? with
    | none => none
    | some id =>
      let way := c.way.push name
      match d.slot? id name with
      | some slot => passTo d { way, table? := slot.inside? } rest
      | none =>
        let (d, inner) := d.newTable
        passTo ((d.set id name (.table inner)).pass way) { way, table? := some inner } rest

/-- Opens the table of a header. -/
def openHeader (d : Document) (key : Key) (inArray : Bool) : Option (Document × Context) := do
  let (d, c) ← d.passTo {} key.dropLast
  let name := key.getLastD []
  let (d, c) ← if inArray then d.enterNext c name else d.enter c name
  some ((d.setKind c [] false).noteOwn key, c)

/-- Opens the tables of the parts of a key before its last. -/
def enterParts : Document → Context → Key → Option (Document × Context)
  | d, c, [] => some (d, c)
  | d, c, [_] => some (d, c)
  | d, c, name :: rest =>
    match ((d.claim c name).pass (c.way.push name)).enter c name with
    | some (d, c) => enterParts d c rest
    | none => none

/-- Gives a name its value below some tables that belong to one value. -/
def graft : Document → Nat → Key → Slot → Option Document
  | d, _, [], _ => some d
  | d, id, [name], slot => some (d.set id name slot)
  | d, id, name :: rest, slot =>
    match d.slot? id name with
    | some (.table inner) => graft d inner rest slot
    | some _ => none
    | none =>
      let (d, inner) := d.newTable
      graft (d.set id name (.table inner)) inner rest slot

end Document

/-! ## Putting a document together -/

/-- A construct that has begun: an entry with its key and the context behind it, an array, or a
table as a value, with the context and the name outside of it, the context of all its entries but
the first, and the number of a table that holds its entries alone. -/
inductive Frame where
  | entry (key : Key) (after : Context)
  | array
  | table (outer : Context) (name : Text) (inner : Context) (id : Nat)

/-- A document that is put together, the table that is open in it, the last name given there, and
what has begun. -/
structure Builder where
  document : Document := {}
  context : Context := {}
  name : Text := []
  frames : List Frame := []

namespace Builder

/-- The header of a table. -/
def header : Builder → Key → Bool → Option Builder
  | ⟨d, _, name, frames⟩, key, inArray =>
    (d.openHeader key inArray).map fun (d, c) => ⟨d, c, name, frames⟩

/-- The context behind an entry. -/
def after (c : Context) : List Frame → Context
  | .table _ _ inner _ :: _ => inner
  | _ => c

/-- The key of an entry. -/
def key : Builder → Key → Option Builder
  | ⟨d, c, _, frames⟩, key =>
    let frame := Frame.entry key (after c frames)
    let name := key.getLastD []
    (d.enterParts c key).map fun (d, c) => ⟨d.note c name, c, name, frame :: frames⟩

/-- Adds an entry to the table that holds the entries of a value. -/
def graft (d : Document) (key : Key) (slot : Slot) : List Frame → Option Document
  | .table _ _ _ id :: _ => d.graft id key slot
  | _ => some d

/-- A value that is complete. -/
def finish : Builder → Slot → Option Builder
  | ⟨d, c, name, .entry key after :: frames⟩, slot =>
    ((d.put c name slot).bind fun d =>
      graft (d.setKind c name (slot == .array)) key slot frames).map fun d =>
        ⟨d, after, name, frames⟩
  | b, _ => some b

/-- The start of an array. -/
def openArray : Builder → Builder
  | ⟨d, c, name, frames⟩ => ⟨d.setKind c name true, c, name, .array :: frames⟩

/-- Whether a value is an item of an array. -/
def inArray : List Frame → Bool
  | .array :: _ => true
  | _ => false

/-- The start of a table as a value. -/
def openTable : Builder → Option Builder
  | ⟨d, c, name, frames⟩ =>
    let (d, outer) := d.extend c name
    let d := d.pass outer.way
    let opened := if inArray frames then d.enterNext c name else d.enter c name
    opened.map fun (d, context) =>
      let (d, id) := d.newTable
      let inner := { outer with table? := context.table? }
      ⟨d, context, name, .table c name inner id :: frames⟩

/-- The end of a construct that is a value. -/
def close : Builder → Option Builder
  | ⟨d, c, name, .array :: frames⟩ => finish ⟨d, c, name, frames⟩ .array
  | ⟨d, _, _, .table outer name _ id :: frames⟩ => finish ⟨d, outer, name, frames⟩ (.table id)
  | _ => none

/-- Adds a token. -/
def step (b : Builder) : Token → Option Builder
  | .header key inArray => b.header key inArray
  | .key key => b.key key
  | .scalar s => b.finish (.scalar s)
  | .openArray => some b.openArray
  | .openTable => b.openTable
  | .closeArray | .closeTable => b.close

end Builder

/-- The document of a text; nothing if it is not well formed. -/
def parse (edition : Edition) (content : Text) : Option Document := do
  let b ← (← tokens edition content).foldlM Builder.step {}
  some b.document

end SpsAssembler.Toml
