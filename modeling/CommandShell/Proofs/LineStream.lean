/-
Module: CommandShell.Proofs.LineStream
Purpose: The answers of a reader, told from the flat stream of its bytes and failures.
Trusted boundary: none
Main exports:
  Item, Supply.stream, Cut, cut, Cut.answer, terminated, LineStream, LineStream.next_terminated,
  readBounded_follows, discardLine_follows, Reader.next_stream, Reader.finished_next,
  Reader.run_eq_of_stream_eq, Reader.readings_eq_lineStream
-/
import CommandShell.Proofs.Turn
import CommandShell.Source.Reader

namespace CommandShell

/-!
A reader looks for the end of a line in two passes over chunks.  The reference below knows neither
passes nor chunks: it cuts a flat stream at its first newline, at its first failure or at its end,
and judges the line by its length alone.  The two give the same answers, call by call.
-/

/-- What a reader of bytes comes to, one thing at a time.  An interruption leaves no trace. -/
inductive Item where
  | byte (value : UInt8)
  | failure (cause : IoError)
deriving Repr, DecidableEq, Inhabited

def Refill.items : Refill → List Item
  | .chunk bytes => bytes.map .byte
  | .interrupted => []
  | .failed cause => [.failure cause]

/-- All that is still to come, without the borders of the chunks. -/
def Supply.stream (supply : Supply) : List Item :=
  supply.buffered.map .byte ++ supply.refills.flatMap Refill.items

/-- The bytes before the first newline or failure, what ended them, and what comes after it. -/
structure Cut where
  content : Bytes
  stop : Stop
  rest : List Item
deriving Repr, DecidableEq, Inhabited

/-- The same cut, with bytes before it. -/
def Cut.after (earlier : Bytes) (cut : Cut) : Cut :=
  { cut with content := earlier ++ cut.content }

def cut : List Item → Cut
  | [] => ⟨[], .ended, []⟩
  | .failure cause :: rest => ⟨[], .failed cause, rest⟩
  | .byte value :: rest =>
      if value = newline then ⟨[], .newline, rest⟩ else (cut rest).after [value]

/-- The answer for what has been cut off.  A line with `limit` bytes or more is too long; one that
the end of the input cuts short is then no line at all. -/
def Cut.answer (limit : Nat) (cut : Cut) : Reading :=
  match cut.stop with
  | .newline => if cut.content.length < limit then .line (shown cut.content) else .overflow
  | .ended =>
      if 1 ≤ cut.content.length ∧ cut.content.length < limit then .line (shown cut.content)
      else .finished
  | .failed cause => .failed (.io cause)

/-- The reference: a source of lines with fewer than `limit` bytes over a flat stream. -/
structure LineStream where
  limit : Nat
  items : List Item
deriving Repr, DecidableEq, Inhabited

def LineStream.next (stream : LineStream) : Reading × LineStream :=
  ((cut stream.items).answer stream.limit, { stream with items := (cut stream.items).rest })

theorem Cut.after_append (one other : Bytes) (cut : Cut) :
    cut.after (one ++ other) = (cut.after other).after one := by
  simp only [Cut.after, List.append_assoc]

/-- A cut goes past bytes that are no newline. -/
theorem cut_append {bytes : Bytes} (plain : ∀ byte ∈ bytes, byte ≠ newline) (items : List Item) :
    cut (bytes.map .byte ++ items) = (cut items).after bytes := by
  induction bytes with
  | nil => rfl
  | cons byte bytes ih =>
      have here : byte ≠ newline := plain byte List.mem_cons_self
      have later : ∀ other ∈ bytes, other ≠ newline := by
        intro other member
        exact plain other (List.mem_cons_of_mem byte member)
      rw [List.map_cons, List.cons_append, cut, if_neg here, ih later]
      exact (Cut.after_append [byte] bytes (cut items)).symm

/-- The items of a line that a newline ends. -/
def terminated (content : Bytes) : List Item :=
  (content ++ [newline]).map .byte

/-- A line that a newline ends is cut off there, whatever comes after it. -/
theorem cut_terminated {content : Bytes} (single : newline ∉ content) (items : List Item) :
    cut (terminated content ++ items) = ⟨content, .newline, items⟩ := by
  have plain : ∀ byte ∈ content, byte ≠ newline := by
    rintro byte member rfl
    exact single member
  rw [terminated, List.map_append, List.append_assoc, cut_append plain]
  simp [cut, Cut.after]

/-- A line that a newline ends is delivered if it is short enough, whatever comes after it. -/
theorem LineStream.next_terminated {limit : Nat} {content : Bytes} (single : newline ∉ content)
    (items : List Item) :
    LineStream.next ⟨limit, terminated content ++ items⟩ =
      (if content.length < limit then .line (shown content) else .overflow, ⟨limit, items⟩) := by
  rw [LineStream.next, cut_terminated single]
  rfl

/-- Where the input has ended, nothing is left of it. -/
theorem rest_cut_of_ended {items : List Item} (ended : (cut items).stop = .ended) :
    (cut items).rest = [] := by
  induction items with
  | nil => rfl
  | cons item items ih =>
      cases item with
      | failure cause => cases ended
      | byte value =>
          rw [cut] at ended ⊢
          split at ended
          case isTrue => cases ended
          case isFalse other =>
            rw [if_neg other]
            exact ih ended

/-- Bytes that are already there come first in the stream. -/
theorem Supply.stream_append (earlier later : Bytes) (refills : List Refill) :
    stream ⟨earlier ++ later, refills⟩ = earlier.map .byte ++ stream ⟨later, refills⟩ := by
  simp only [stream, List.map_append, List.append_assoc]

/-- A chunk is in the stream what its bytes are. -/
@[simp] theorem Supply.stream_chunk (bytes : Bytes) (more : List Refill) :
    stream ⟨[], .chunk bytes :: more⟩ = stream ⟨bytes, more⟩ := by
  simp only [stream, List.map_nil, List.nil_append, List.flatMap_cons, Refill.items]

/-- An interruption leaves no trace in the stream. -/
@[simp] theorem Supply.stream_interrupted (more : List Refill) :
    stream ⟨[], .interrupted :: more⟩ = stream ⟨[], more⟩ := by
  simp only [stream, List.map_nil, List.nil_append, List.flatMap_cons, Refill.items]

/-- A failure is one item of the stream. -/
@[simp] theorem Supply.stream_failed (cause : IoError) (more : List Refill) :
    stream ⟨[], .failed cause :: more⟩ = .failure cause :: stream ⟨[], more⟩ := by
  simp only [stream, List.map_nil, List.nil_append, List.flatMap_cons, Refill.items,
    List.cons_append]

/-- A cut never makes up items. -/
theorem cut_length (items : List Item) :
    (cut items).content.length + (cut items).stop.size + (cut items).rest.length ≤
      items.length := by
  induction items with
  | nil => exact Nat.le_refl _
  | cons item items ih =>
      cases item with
      | failure cause => simp [cut, Stop.size]
      | byte value =>
          rw [cut]
          split
          · simp only [Stop.size, List.length_nil, List.length_cons]
            omega
          · simp only [Cut.after, List.length_append, List.length_cons, List.length_nil]
            omega

/-- An answer that promises another one has cut something off. -/
theorem LineStream.size_next (stream : LineStream) (more : stream.next.1.continues = true) :
    stream.next.2.items.length < stream.items.length := by
  have taken := cut_length stream.items
  rw [LineStream.next] at more ⊢
  dsimp only at more ⊢
  have used : 1 ≤ (cut stream.items).content.length + (cut stream.items).stop.size := by
    generalize cut stream.items = part at more ⊢
    rcases part with ⟨content, stop, rest⟩
    cases stop with
    | newline => exact Nat.le_add_left 1 content.length
    | ended =>
        simp only [Cut.answer] at more
        split at more
        case isTrue short => exact short.1
        case isFalse => cases more
    | failed cause => cases more
  omega

instance : LineSource LineStream where
  next := LineStream.next
  showsPrompt _ := false
  size stream := stream.items.length
  size_next := LineStream.size_next

/-! ### The two passes -/

/-- A search for a newline goes past bytes that hold none. -/
theorem takeWhile_ne_newline {line : Bytes} (single : newline ∉ line) (rest : Bytes) :
    (line ++ rest).takeWhile (· != newline) = line ++ rest.takeWhile (· != newline) := by
  apply List.takeWhile_append_of_pos
  intro byte member
  apply bne_iff_ne.mpr
  rintro rfl
  exact single member

/-- Where there is no newline, it goes to the end. -/
theorem takeWhile_ne_newline_self {line : Bytes} (single : newline ∉ line) :
    line.takeWhile (· != newline) = line := by
  have past := takeWhile_ne_newline single []
  rwa [List.takeWhile_nil, List.append_nil] at past

/-- A search for a newline leaves what comes after bytes that hold none. -/
theorem dropWhile_ne_newline {line : Bytes} (single : newline ∉ line) (rest : Bytes) :
    (line ++ rest).dropWhile (· != newline) = rest.dropWhile (· != newline) := by
  apply List.dropWhile_append_of_pos
  intro byte member
  apply bne_iff_ne.mpr
  rintro rfl
  exact single member

private theorem ne_newline_of_mem_takeWhile {bytes : Bytes} :
    ∀ byte ∈ bytes.takeWhile (· != newline), byte ≠ newline := by
  intro byte member
  have kept := List.all_eq_true.mp List.all_takeWhile byte member
  exact bne_iff_ne.mp kept

private theorem eq_newline_of_dropWhile {bytes rest : Bytes} {byte : UInt8}
    (dropped : bytes.dropWhile (· != newline) = byte :: rest) : byte = newline := by
  have stopped := List.head_dropWhile_not (· != newline) (l := bytes) (by rw [dropped]; simp)
  simpa [dropped] using stopped

/-- What the first pass takes of the bytes at hand comes first in them and holds no newline; if
there was room for more, a byte that is left is a newline. -/
private theorem takeWhile_take_spec (room : Nat) (bytes : Bytes) :
    let content := (bytes.take room).takeWhile (· != newline)
    (∀ byte ∈ content, byte ≠ newline) ∧ content.length ≤ room ∧
      content ++ bytes.drop content.length = bytes ∧
      (content.length < room →
        ∀ byte rest, bytes.drop content.length = byte :: rest → byte = newline) := by
  intro content
  have first : content <+: bytes := (List.takeWhile_prefix _).trans (List.take_prefix room bytes)
  refine ⟨ne_newline_of_mem_takeWhile, ?_, List.prefix_iff_eq_append.mp first, ?_⟩
  · exact Nat.le_trans (List.takeWhile_prefix _).length_le (List.length_take_le room bytes)
  · intro short byte rest left
    have whole : content = bytes.takeWhile (· != newline) := by
      have cutOff : content = (bytes.takeWhile (· != newline)).take room :=
        List.take_takeWhile.symm
      rw [cutOff, List.length_take] at short
      rw [cutOff]
      exact List.take_of_length_le (by omega)
    have parts : content ++ bytes.dropWhile (· != newline) = bytes := by
      rw [whole]
      exact List.takeWhile_append_dropWhile
    have dropped : bytes.dropWhile (· != newline) = byte :: rest := by
      calc bytes.dropWhile (· != newline)
          = (content ++ bytes.dropWhile (· != newline)).drop content.length :=
            List.drop_left.symm
        _ = bytes.drop content.length := by rw [parts]
        _ = byte :: rest := left
    exact eq_newline_of_dropWhile dropped

/-- A first pass over a stream that goes as far as a cut does, or fills its room before. -/
def BoundedRead.Follows (room : Nat) (items : List Item) (read : BoundedRead) : Prop :=
  match read.stop with
  | some stop => read.content.length < room ∧ cut items = ⟨read.content, stop, read.rest.stream⟩
  | none => read.content.length = room ∧ cut items = (cut read.rest.stream).after read.content

/-- A pass that follows the stream still does when bytes without a newline, for which there is room,
have come before. -/
theorem BoundedRead.Follows.after {room : Nat} {items : List Item} {read : BoundedRead}
    {content : Bytes} (plain : ∀ byte ∈ content, byte ≠ newline) (fits : content.length ≤ room)
    (follows : read.Follows (room - content.length) items) :
    (read.after content).Follows room (content.map .byte ++ items) := by
  rcases read with ⟨later, _ | stop, rest⟩
  case none =>
    have full : later.length = room - content.length := follows.1
    have same : cut items = (cut rest.stream).after later := follows.2
    constructor
    · calc (content ++ later).length
          = content.length + (room - content.length) := by rw [List.length_append, full]
        _ = room := Nat.add_sub_cancel' fits
    · rw [cut_append plain, same]
      exact (Cut.after_append content later (cut rest.stream)).symm
  case some =>
    have short : later.length < room - content.length := follows.1
    have same : cut items = ⟨later, stop, rest.stream⟩ := follows.2
    constructor
    · calc (content ++ later).length
          = content.length + later.length := List.length_append
        _ < room := by omega
    · rw [cut_append plain, same]
      rfl

/-- The first pass goes over the stream as far as a cut does, unless it is full before. -/
theorem readBounded_follows (room : Nat) (buffered : Bytes) (refills : List Refill) :
    (readBounded room buffered refills).Follows room (Supply.stream ⟨buffered, refills⟩) := by
  fun_induction readBounded room buffered refills
  case case1 refills room buffered content full =>
    obtain ⟨plain, fits, whole, next⟩ := takeWhile_take_spec room buffered
    refine ⟨full, ?_⟩
    rw [← whole, Supply.stream_append, cut_append plain]
    simp only [whole]
    rfl
  case case2 refills room buffered content roomy byte rest left =>
    obtain ⟨plain, fits, whole, next⟩ := takeWhile_take_spec room buffered
    have short : content.length < room := Nat.lt_of_le_of_ne fits roomy
    have ended : byte = newline := next short byte rest left
    refine ⟨short, ?_⟩
    rw [← whole, left, Supply.stream_append, cut_append plain, ended]
    simp [Supply.stream, cut, Cut.after, content]
  case case3 room buffered content roomy left =>
    obtain ⟨plain, fits, whole, next⟩ := takeWhile_take_spec room buffered
    refine ⟨Nat.lt_of_le_of_ne fits roomy, ?_⟩
    rw [← whole, left, Supply.stream_append, cut_append plain]
    simp [Supply.stream, cut, Cut.after, content]
  case case4 room buffered content roomy left bytes more ih =>
    obtain ⟨plain, fits, whole, next⟩ := takeWhile_take_spec room buffered
    rw [← whole, left, Supply.stream_append, Supply.stream_chunk]
    exact ih.after plain fits
  case case5 room buffered content roomy left more ih =>
    obtain ⟨plain, fits, whole, next⟩ := takeWhile_take_spec room buffered
    rw [← whole, left, Supply.stream_append, Supply.stream_interrupted]
    exact ih.after plain fits
  case case6 room buffered content roomy left cause more =>
    obtain ⟨plain, fits, whole, next⟩ := takeWhile_take_spec room buffered
    refine ⟨Nat.lt_of_le_of_ne fits roomy, ?_⟩
    rw [← whole, left, Supply.stream_append, Supply.stream_failed, cut_append plain]
    simp [cut, Cut.after, content]

/-- The second pass goes over the stream as far as a cut does. -/
theorem discardLine_follows (buffered : Bytes) (refills : List Refill) :
    (discardLine buffered refills).1 = (cut (Supply.stream ⟨buffered, refills⟩)).stop ∧
      (discardLine buffered refills).2.stream =
        (cut (Supply.stream ⟨buffered, refills⟩)).rest := by
  have parts := List.takeWhile_append_dropWhile (p := (· != newline)) (l := buffered)
  have plain : ∀ byte ∈ buffered.takeWhile (· != newline), byte ≠ newline :=
    ne_newline_of_mem_takeWhile
  fun_induction discardLine buffered refills
  case case1 refills buffered byte rest left =>
    rw [left, eq_newline_of_dropWhile left] at parts
    rw [← parts, Supply.stream_append, cut_append plain]
    simp [Supply.stream, cut, Cut.after]
  case case2 buffered left =>
    rw [left] at parts
    rw [← parts, Supply.stream_append, cut_append plain]
    simp [Supply.stream, cut, Cut.after]
  case case3 buffered left bytes more ih =>
    rw [left] at parts
    rw [← parts, Supply.stream_append, Supply.stream_chunk, cut_append plain]
    exact ih List.takeWhile_append_dropWhile ne_newline_of_mem_takeWhile
  case case4 buffered left more ih =>
    rw [left] at parts
    rw [← parts, Supply.stream_append, Supply.stream_interrupted, cut_append plain]
    exact ih List.takeWhile_append_dropWhile ne_newline_of_mem_takeWhile
  case case5 buffered left cause more =>
    rw [left] at parts
    rw [← parts, Supply.stream_append, Supply.stream_failed, cut_append plain]
    simp [cut, Cut.after]

/-- A line that ends while there is room for more is answered by its end. -/
theorem Cut.answer_of_lt {limit : Nat} {cut : Cut} (short : cut.content.length < limit) :
    cut.answer limit =
      match cut.stop with
      | .newline => .line (shown cut.content)
      | .ended => if cut.content.isEmpty then .finished else .line (shown cut.content)
      | .failed cause => .failed (.io cause) := by
  rcases cut with ⟨content, stop, rest⟩
  cases stop with
  | newline => exact if_pos short
  | ended =>
      cases content with
      | nil => simp [answer]
      | cons byte content => simpa [answer] using short
  | failed cause => rfl

/-- A line that fills the room is no line any more, however it goes on. -/
theorem Cut.answer_of_le {limit : Nat} {cut : Cut} (full : limit ≤ cut.content.length) :
    cut.answer limit =
      match cut.stop with
      | .newline => .overflow
      | .ended => .finished
      | .failed cause => .failed (.io cause) := by
  rcases cut with ⟨content, stop, rest⟩
  have long : ¬ content.length < limit := Nat.not_lt_of_le full
  cases stop with
  | newline => exact if_neg long
  | ended => exact if_neg fun both => long both.2
  | failed cause => rfl

/-- One call of a reader answers as the reference does and leaves the stream that it leaves. -/
theorem Reader.next_stream {reader : Reader} (positive : 1 ≤ reader.limit) :
    reader.next.1 = (cut reader.supply.stream).answer reader.limit ∧
      reader.next.2.limit = reader.limit ∧
      reader.next.2.supply.stream = (cut reader.supply.stream).rest := by
  have follows := readBounded_follows reader.limit reader.supply.buffered reader.supply.refills
  unfold Reader.next
  generalize readBounded reader.limit reader.supply.buffered reader.supply.refills = read
    at follows
  rcases read with ⟨content, _ | stop, rest⟩
  case none =>
    have full : content.length = reader.limit := follows.1
    have same : cut reader.supply.stream = (cut rest.stream).after content := follows.2
    obtain ⟨sameStop, sameRest⟩ := discardLine_follows rest.buffered rest.refills
    have some : content.isEmpty = false := by
      cases content with
      | nil => exact absurd positive (by rw [← full]; exact Nat.not_succ_le_zero 0)
      | cons byte content => rfl
    have long : reader.limit ≤ (cut reader.supply.stream).content.length := by
      rw [same, Cut.after, List.length_append, full]
      exact Nat.le_add_right _ _
    rw [Cut.answer_of_le long, same]
    dsimp only [Cut.after]
    rw [some, if_neg Bool.false_ne_true, sameStop, sameRest]
    exact ⟨rfl, rfl, rfl⟩
  case some =>
    have same : cut reader.supply.stream = ⟨content, stop, rest.stream⟩ := follows.2
    have brief : (cut reader.supply.stream).content.length < reader.limit := by
      rw [same]
      exact follows.1
    rw [Cut.answer_of_lt brief, same]
    cases stop with
    | newline => exact ⟨rfl, rfl, rfl⟩
    | ended => exact ⟨rfl, rfl, rfl⟩
    | failed cause => exact ⟨rfl, rfl, rfl⟩

/-- The reference for a reader. -/
def Reader.lineStream (reader : Reader) : LineStream :=
  ⟨reader.limit, reader.supply.stream⟩

/-- A reader whose limit leaves room for a line cannot be told apart from its reference. -/
theorem Reader.lineStream_simulation :
    LineSource.Simulation fun (reader : Reader) (stream : LineStream) =>
      1 ≤ reader.limit ∧ stream = reader.lineStream where
  reading := by
    rintro reader stream ⟨positive, rfl⟩
    exact (next_stream positive).1
  rest := by
    rintro reader stream ⟨positive, rfl⟩
    obtain ⟨_, sameLimit, sameRest⟩ := next_stream positive
    constructor
    · exact Nat.le_trans positive (Nat.le_of_eq sameLimit.symm)
    · exact congr (congrArg LineStream.mk sameLimit.symm) sameRest.symm

/-- A reader without room for a line answers that the input has finished, whatever there is. -/
theorem Reader.next_of_limit_eq_zero {reader : Reader} (none : reader.limit = 0) :
    reader.next = (.finished, reader) := by
  obtain ⟨limit, supply⟩ := reader
  dsimp only at none
  subst none
  unfold next readBounded
  rfl

/-- Once the input has finished, it stays so. -/
theorem Reader.finished_next {reader : Reader} (finished : reader.next.1 = .finished) :
    reader.next.2.next.1 = .finished := by
  cases Nat.eq_zero_or_pos reader.limit with
  | inl none => rw [next_of_limit_eq_zero none]; exact finished
  | inr positive =>
      obtain ⟨answered, sameLimit, sameRest⟩ := next_stream positive
      have ended : (cut reader.supply.stream).stop = .ended := by
        rw [answered] at finished
        generalize cut reader.supply.stream = part at finished
        rcases part with ⟨content, stop, rest⟩
        cases stop with
        | ended => rfl
        | newline =>
            simp only [Cut.answer] at finished
            split at finished <;> cases finished
        | failed cause => cases finished
      rw [(next_stream (sameLimit ▸ positive)).1, sameRest, rest_cut_of_ended ended]
      rfl

/-- Readers with one limit and one flat stream stay so. -/
theorem Reader.stream_simulation :
    LineSource.Simulation fun one other : Reader =>
      one.limit = other.limit ∧ one.supply.stream = other.supply.stream where
  reading := by
    intro one other ⟨sameLimit, same⟩
    change one.next.1 = other.next.1
    cases Nat.eq_zero_or_pos one.limit with
    | inl none => rw [next_of_limit_eq_zero none, next_of_limit_eq_zero (sameLimit ▸ none)]
    | inr positive =>
        rw [(next_stream positive).1, (next_stream (sameLimit ▸ positive)).1, same, sameLimit]
  rest := by
    intro one other ⟨sameLimit, same⟩
    change one.next.2.limit = other.next.2.limit ∧
      one.next.2.supply.stream = other.next.2.supply.stream
    cases Nat.eq_zero_or_pos one.limit with
    | inl none =>
        rw [next_of_limit_eq_zero none, next_of_limit_eq_zero (sameLimit ▸ none)]
        exact ⟨sameLimit, same⟩
    | inr positive =>
        obtain ⟨_, firstLimit, firstRest⟩ := next_stream positive
        obtain ⟨_, secondLimit, secondRest⟩ := next_stream (sameLimit ▸ positive)
        rw [firstLimit, firstRest, secondLimit, secondRest, same]
        exact ⟨sameLimit, rfl⟩

/-- No session tells readers with one limit and one flat stream apart. -/
theorem Reader.run_eq_of_stream_eq {one other : Reader} (limit : one.limit = other.limit)
    (stream : one.supply.stream = other.supply.stream) (session : Session) :
    session.run one = session.run other :=
  stream_simulation.run_eq (fun _ => rfl) (And.intro limit stream) session

/-- However its bytes come in chunks and however often it is interrupted, a reader gives the
answers of the reference over the flat stream, one after the other and past the end.  So supplies
with one flat stream cannot be told apart. -/
theorem Reader.readings_eq_lineStream {limit : Nat} (positive : 1 ≤ limit) (supply : Supply) :
    (∀ count, LineSource.readings count (Reader.mk limit supply) =
      LineSource.readings count (LineStream.mk limit supply.stream)) ∧
    ∀ other : Supply, other.stream = supply.stream → ∀ count,
      LineSource.readings count (Reader.mk limit other) =
        LineSource.readings count (Reader.mk limit supply) := by
  have flat : ∀ supply : Supply, ∀ count, LineSource.readings count (Reader.mk limit supply) =
      LineSource.readings count (LineStream.mk limit supply.stream) := by
    intro supply count
    exact lineStream_simulation.readings_eq ⟨positive, rfl⟩ count
  refine ⟨flat supply, ?_⟩
  intro other same count
  rw [flat other, flat supply, same]

/-- A line that is cut in two by an interruption, a failure that loses what came before it, a line
of exactly the limit, one byte less at the end, and nothing after it. -/
theorem Reader.readings_eq_lineStream_torn :
    1 ≤ 3 ∧
      LineSource.readings 5 (Reader.mk 3 ⟨[0x61], [.interrupted, .chunk [0x62, newline, 0x63],
        .failed .closed, .chunk [0x64, 0x65], .chunk [0x66, newline, 0x67, 0x68]]⟩) =
      LineSource.readings 5 (LineStream.mk 3 [.byte 0x61, .byte 0x62, .byte newline, .byte 0x63,
        .failure .closed, .byte 0x64, .byte 0x65, .byte 0x66, .byte newline, .byte 0x67,
        .byte 0x68]) ∧
      LineSource.readings 5 (LineStream.mk 3 [.byte 0x61, .byte 0x62, .byte newline, .byte 0x63,
        .failure .closed, .byte 0x64, .byte 0x65, .byte 0x66, .byte newline, .byte 0x67,
        .byte 0x68]) =
      [.line "ab", .failed (.io .closed), .overflow, .line "gh", .finished] :=
  ⟨by decide, (readings_eq_lineStream (by decide) _).1 5, by decide⟩

end CommandShell
