/-
Module: CommandShell.Source.Reader
Purpose: Lines of bounded length from bytes that come in chunks.
Trusted boundary: none
Main exports:
  Refill, Supply, readBounded, discardLine, Reader, Reader.next
-/
import CommandShell.Source

namespace CommandShell

/-- The byte that ends a line. -/
def newline : UInt8 := 0x0A

/-- What comes of asking for more bytes.  An interruption asks for another attempt; any other
failure is told to whoever wanted the bytes. -/
inductive Refill where
  | chunk (bytes : Bytes)
  | interrupted
  | failed (cause : IoError)
deriving Repr, DecidableEq, Inhabited

def Refill.size : Refill → Nat
  | .chunk bytes => bytes.length
  | .interrupted => 0
  | .failed _ => 0

/-- The bytes at hand, and the attempts to get more that are still to come.  After the last one
the input has ended. -/
structure Supply where
  buffered : Bytes := []
  refills : List Refill := []
deriving Repr, DecidableEq, Inhabited

/-- The number of bytes still to come. -/
def Supply.size (supply : Supply) : Nat :=
  supply.buffered.length + supply.refills.foldr (fun refill rest => refill.size + rest) 0

/-!
A line is looked for in two passes.  The first takes up to as many bytes as a line may have, its
newline included.  Only if that much has been taken without a newline does the second pass throw
away the rest of the line.  Both are structural in the refills.
-/

/-- Why a pass over the input stopped. -/
inductive Stop where
  | newline
  | ended
  | failed (cause : IoError)
deriving Repr, DecidableEq, Inhabited

/-- What the first pass took, why it stopped (`none`: there was no room for more), and what is
left. -/
structure BoundedRead where
  content : Bytes
  stop : Option Stop
  rest : Supply
deriving Repr, DecidableEq, Inhabited

/-- The same pass, with bytes taken before it. -/
def BoundedRead.after (earlier : Bytes) (read : BoundedRead) : BoundedRead :=
  { read with content := earlier ++ read.content }

/-- Take bytes up to a newline, which is used up but not part of the content, and at most `room`
of them. -/
def readBounded (room : Nat) (buffered : Bytes) (refills : List Refill) : BoundedRead :=
  let content := (buffered.take room).takeWhile (· != newline)
  if content.length = room then
    ⟨content, none, ⟨buffered.drop content.length, refills⟩⟩
  else
    match buffered.drop content.length with
    | _ :: rest => ⟨content, some .newline, ⟨rest, refills⟩⟩
    | [] =>
        match refills with
        | [] => ⟨content, some .ended, ⟨[], []⟩⟩
        | .chunk bytes :: more => (readBounded (room - content.length) bytes more).after content
        | .interrupted :: more => (readBounded (room - content.length) [] more).after content
        | .failed cause :: more => ⟨content, some (.failed cause), ⟨[], more⟩⟩

/-- Throw bytes away up to and including a newline. -/
def discardLine (buffered : Bytes) (refills : List Refill) : Stop × Supply :=
  match buffered.dropWhile (· != newline) with
  | _ :: rest => (.newline, ⟨rest, refills⟩)
  | [] =>
      match refills with
      | [] => (.ended, ⟨[], []⟩)
      | .chunk bytes :: more => discardLine bytes more
      | .interrupted :: more => discardLine [] more
      | .failed cause :: more => (.failed cause, ⟨[], more⟩)

/-- The bytes that a stop itself used up. -/
def Stop.size : Stop → Nat
  | .newline => 1
  | .ended => 0
  | .failed _ => 0

/-- A source of lines with fewer than `limit` bytes. -/
structure Reader where
  limit : Nat
  supply : Supply
deriving Repr, DecidableEq, Inhabited

namespace Reader

/-- The next line.  Bytes that are not UTF-8 are replaced.  A line that is too long is answered
as such if a newline ends it; if the input ends first, the input has ended. -/
def next (reader : Reader) : Reading × Reader :=
  let read := readBounded reader.limit reader.supply.buffered reader.supply.refills
  match read.stop with
  | some .newline => (.line (shown read.content), { reader with supply := read.rest })
  | some .ended =>
      (if read.content.isEmpty then .finished else .line (shown read.content),
        { reader with supply := read.rest })
  | some (.failed cause) => (.failed (.io cause), { reader with supply := read.rest })
  | none =>
      if read.content.isEmpty then
        (.finished, { reader with supply := read.rest })
      else
        let discarded := discardLine read.rest.buffered read.rest.refills
        (match discarded.1 with
          | .newline => .overflow
          | .ended => .finished
          | .failed cause => .failed (.io cause),
          { reader with supply := discarded.2 })

end Reader

/-!
No pass makes up bytes: what it took, what its stop used up and what is left are together no more
than there was.  So each line uses up at least one byte.
-/

private theorem length_takeWhile_take_le (room : Nat) (bytes : Bytes) :
    ((bytes.take room).takeWhile (· != newline)).length ≤ bytes.length := by
  calc ((bytes.take room).takeWhile (· != newline)).length
      ≤ (bytes.take room).length := (List.takeWhile_prefix _).length_le
    _ ≤ bytes.length := List.length_take_le' ..

/-- The bounded pass hands out, uses up and leaves together no more bytes than there were. -/
theorem readBounded_size (room : Nat) (buffered : Bytes) (refills : List Refill) :
    let read := readBounded room buffered refills
    read.content.length + (read.stop.map Stop.size).getD 0 + read.rest.size ≤
      Supply.size ⟨buffered, refills⟩ := by
  have bound := length_takeWhile_take_le room buffered
  induction refills generalizing room buffered with
  | nil =>
      unfold readBounded
      generalize (buffered.take room).takeWhile (· != newline) = content at bound
      dsimp only
      split
      · simp [Supply.size]; omega
      · split
        case h_1 left byte rest split =>
          have lengths := congrArg List.length split
          simp [Supply.size, Stop.size] at lengths ⊢
          omega
        case h_2 => simp [Supply.size, Stop.size]; omega
  | cons refill more ih =>
      unfold readBounded
      generalize (buffered.take room).takeWhile (· != newline) = content at bound
      dsimp only
      split
      · simp [Supply.size]; omega
      · split
        case h_1 left byte rest split =>
          have lengths := congrArg List.length split
          simp [Supply.size, Stop.size] at lengths ⊢
          omega
        case h_2 =>
          cases refill with
          | chunk bytes =>
              have smaller := ih (room - content.length) bytes
                (length_takeWhile_take_le ..)
              simp [Supply.size, BoundedRead.after, Refill.size] at smaller ⊢
              omega
          | interrupted =>
              have smaller := ih (room - content.length) [] (length_takeWhile_take_le ..)
              simp [Supply.size, BoundedRead.after, Refill.size] at smaller ⊢
              omega
          | failed cause =>
              simp [Supply.size, Stop.size, Refill.size]
              omega

/-- The pass that discards uses up and leaves together no more bytes than there were. -/
theorem discardLine_size (buffered : Bytes) (refills : List Refill) :
    (discardLine buffered refills).1.size + (discardLine buffered refills).2.size ≤
      Supply.size ⟨buffered, refills⟩ := by
  have bound := (List.dropWhile_suffix (l := buffered) (· != newline)).length_le
  induction refills generalizing buffered with
  | nil =>
      unfold discardLine
      split
      case h_1 byte rest split =>
        rw [split] at bound
        simp only [Stop.size, Supply.size, List.length_cons] at bound ⊢
        omega
      case h_2 => simp [Stop.size, Supply.size]
  | cons refill more ih =>
      unfold discardLine
      split
      case h_1 byte rest split =>
        rw [split] at bound
        simp only [Stop.size, Supply.size, List.length_cons] at bound ⊢
        omega
      case h_2 =>
        cases refill with
        | chunk bytes =>
            have smaller := ih bytes (List.dropWhile_suffix _).length_le
            simp only [Supply.size, List.foldr_cons, Refill.size] at smaller ⊢
            omega
        | interrupted =>
            have smaller := ih [] (List.dropWhile_suffix _).length_le
            simp only [Supply.size, List.foldr_cons, Refill.size,
              List.length_nil] at smaller ⊢
            omega
        | failed cause =>
            simp only [Supply.size, List.foldr_cons, Refill.size, Stop.size,
              List.length_nil]
            omega

/-- A reading that promises another one has used up some of the supply. -/
theorem Reader.size_next (reader : Reader) (more : reader.next.1.continues = true) :
    reader.next.2.supply.size < reader.supply.size := by
  have taken := readBounded_size reader.limit reader.supply.buffered reader.supply.refills
  unfold Reader.next at more ⊢
  generalize readBounded reader.limit reader.supply.buffered reader.supply.refills = read
    at taken more ⊢
  rcases read with ⟨content, stop, rest⟩
  have whole : Supply.size ⟨reader.supply.buffered, reader.supply.refills⟩ =
    reader.supply.size := rfl
  rw [whole] at taken
  rcases stop with _ | stop
  case none =>
    have thrown := discardLine_size rest.buffered rest.refills
    rcases content with _ | ⟨byte, content⟩
    · simp [Reading.continues] at more
    · simp only [Option.map_none, Option.getD_none, List.length_cons] at taken
      exact Nat.lt_of_le_of_lt (Nat.le_trans (Nat.le_add_left _ _) thrown)
        (show rest.size < reader.supply.size by omega)
  case some =>
    cases stop with
    | newline =>
        simp only [Option.map_some, Option.getD_some, Stop.size] at taken
        show rest.size < reader.supply.size
        omega
    | ended =>
        rcases content with _ | ⟨byte, content⟩
        · simp [Reading.continues] at more
        · simp only [Option.map_some, Option.getD_some, Stop.size, List.length_cons] at taken
          show rest.size < reader.supply.size
          omega
    | failed cause => simp [Reading.continues] at more

instance : LineSource Reader where
  next := Reader.next
  showsPrompt _ := false
  size reader := reader.supply.size
  size_next := Reader.size_next

end CommandShell
