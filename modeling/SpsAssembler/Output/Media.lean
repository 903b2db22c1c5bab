import SpsAssembler.Machine.Memory

/-!
# Cards and paper tape

The core image as a deck of cards that loads itself: loader cards, a card for each record of up to
60 cells from address 240 on, and the bottom of core on the last three cards. Every record ends in a
mark, its own or one that is added.

The core image as paper tape, one frame for each cell up to the last defined one, then a frame for
the end of the line. The frame of a digit or a mark has an odd number of holes.

* `cardChar`: the column of a cell;
* `takeRecord`, `Card`, `dataCards`: the records;
* `cardDeck`: the deck;
* `tapeCode`: the frame of a cell;
* `paperTape`: the tape.
-/

namespace SpsAssembler

/-! ## Cards -/

/-- The columns of cells with and without a flag. -/
def cardCharacters : Text := ascii "0123456789| )  \x7d]JKLMNOPQR! *  \x22"

/-- The column of a cell. -/
def cardChar (c : Cell) : Byte := cardCharacters.getD (c &&& Cell.cellMask).toNat Byte.blank

/-- The column of a cell on a data card, blank if nothing is stored there. -/
def cardColumn (c : Cell) : Byte := if c == Cell.undefined then Byte.blank else cardChar c

/-- The first card of the loader. -/
def loaderCard1 : Text :=
  ascii "41000000050036001100050026000470011925001090000026000660011431000000012000000000\n"

/-- The second card of the loader. -/
def loaderCard2 : Text :=
  ascii "]0072]0108260009000119250000000109490001200000|000000000000000000000000000000000\n"

/-- The card of the loader behind the data cards. -/
def loaderCard3 : Text :=
  ascii "]0028]01093600160005003600080005001600001000L6490000004900028|000000000000000000\n"

/-- The first address on data cards. -/
def firstCardAddress : Nat := 240

/-- The most cells of a record. -/
def recordSize : Nat := 60

/-- The first `n` cells, or those through the first mark. -/
def takeRecord : Nat → Value → Value
  | 0, _ => []
  | _, [] => []
  | n + 1, c :: rest => if c.isMark then [c] else c :: takeRecord n rest

/-- A data card: where its record goes, where it stops, and its columns. -/
structure Card where
  start : Nat
  stop : Nat
  columns : Text
  deriving DecidableEq, Repr

/-- The card of the record at an address. -/
def Card.ofRecord (size start : Nat) (record : Value) : Card :=
  let columns := Text.trimRight (record.map cardColumn)
  { start
    stop := (start + columns.length) % size
    columns := if record.any Cell.isMark then columns else columns ++ ascii "|" }

/-- Whether a cell is undefined. -/
def isGap (c : Cell) : Bool := c == Cell.undefined

/-- The data cards of the cells from an address on. -/
def dataCardsFrom (size start : Nat) (cells : Value) : List Card :=
  match h : cells.dropWhile isGap with
  | [] => []
  | c :: rest =>
    let first := start + (cells.takeWhile isGap).length
    let record := takeRecord recordSize (c :: rest)
    Card.ofRecord size first record ::
      dataCardsFrom size (first + record.length) (rest.drop (record.length - 1))
termination_by cells.length
decreasing_by
  have hle : (cells.dropWhile isGap).length ≤ cells.length :=
    (List.dropWhile_suffix isGap).length_le
  rw [h] at hle
  simp only [List.length_cons, List.length_drop] at hle ⊢
  omega

/-- The data cards of a memory. -/
def dataCards (m : Memory) : List Card :=
  dataCardsFrom m.cells.size firstCardAddress (m.cells.toList.drop firstCardAddress)

/-- An address in five columns, the first one flagged. An address whose first digit has no column is
a fault. -/
def cardAddress (address : Nat) : Except Fault Text :=
  match cardCharacters[(address / 10000) ||| Cell.flagBit.toNat]? with
  | none => .error .positionOutOfRange
  | some first =>
    .ok (first :: [1000, 100, 10, 1].map fun unit => cardChar (address / unit % 10).toUInt8)

/-- A data card as it is punched. -/
def Card.render (c : Card) : Except Fault Text := do
  let start ← cardAddress c.start
  let stop ← cardAddress c.stop
  pure (start ++ stop ++ c.columns ++ ascii "\n")

/-- The card of 80 cells from an address on. -/
def coreCard (m : Memory) (start : Nat) : Text :=
  (m.cells.extract start (start + 80)).toList.map cardChar ++ ascii "\n"

/-- The card deck of a memory. -/
def cardDeck (m : Memory) : Except Fault Text := do
  let cards ← (dataCards m).mapM Card.render
  pure (loaderCard1 ++ loaderCard2 ++ cards.flatten ++ loaderCard3 ++
    [160, 80, 0].flatMap (coreCard m))

/-! ## Paper tape -/

/-- The frames of cells with and without a flag. -/
def tapeCodes : List Byte :=
  [0x20, 0x01, 0x02, 0x13, 0x04, 0x15, 0x16, 0x07, 0x08, 0x19, 0x2A, 0x0B, 0x1C, 0x00, 0x00, 0x2F,
   0x40, 0x51, 0x52, 0x43, 0x54, 0x45, 0x46, 0x57, 0x58, 0x49, 0x4A, 0x5B, 0x4C, 0x00, 0x00, 0x4F]

/-- The frame of a cell. -/
def tapeCode (c : Cell) : Byte := tapeCodes.getD (c &&& Cell.cellMask).toNat 0

/-- The frame at the end of a tape. -/
def tapeEnd : Byte := 0x80

/-- The paper tape of a memory; a memory without a defined cell has none. -/
def paperTape (m : Memory) : Text :=
  match m.lastDefined with
  | none => []
  | some last => (m.cells.extract 0 (last + 1)).toList.map tapeCode ++ [tapeEnd]

end SpsAssembler
