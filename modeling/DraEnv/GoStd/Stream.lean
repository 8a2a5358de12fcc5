import DraEnv.GoStd.Binary

/-!
Blocking byte streams as Go's `io` and `net` packages present them.

A connection being read from is the list of chunks its successive `Read`
calls hand out, followed for ever by one final error: `io.EOF` when the
peer hung up in an orderly way, something else when the connection was
closed under the reader or reset. The sources read with `io.ReadFull` and
`io.ReadAll`, and the two spec lemmas of the former say that the chunking
is invisible: what it returns and what it leaves behind depend on the
concatenation of the chunks alone.

A connection being written to is described by its faults: for every
prefix already delivered and every buffer, either the whole buffer goes
out or the call stops after some bytes with an error.
-/

namespace DraEnv.GoStd

/-- The errors the sources build, compare and print. -/
inductive GoError where
  /-- `io.EOF` -/
  | eof
  /-- `io.ErrUnexpectedEOF` -/
  | unexpectedEOF
  /-- `net.ErrClosed` -/
  | closed
  /-- An error known only by its text: `errors.New`, `fmt.Errorf` without `%w`,
  or one that comes from the operating system. -/
  | msg (text : String)
  /-- `fmt.Errorf("context: %w", cause)` -/
  | wrap (context : String) (cause : GoError)
  deriving DecidableEq, Repr

/-- The `Error()` method. -/
def GoError.error : GoError → String
  | .eof => "EOF"
  | .unexpectedEOF => "unexpected EOF"
  | .closed => "use of closed network connection"
  | .msg text => text
  | .wrap context cause => context ++ ": " ++ cause.error

/-- The reading side of a connection. -/
structure Conn where
  /-- What the coming `Read` calls return, one chunk a call at most. -/
  chunks : List Bytes
  /-- The error of every `Read` after the last chunk. -/
  fin : GoError
  deriving DecidableEq, Repr

/-- The bytes still to be read. -/
def Conn.bytes (conn : Conn) : Bytes := conn.chunks.flatten

/-- The loop of `io.ReadAtLeast`: collect `min` more bytes behind `buf`. A
chunk longer than what is missing stays in the connection with its rest; an
empty chunk is a `Read` that returned no byte and no error. -/
def readAtLeast : List Bytes → Nat → Bytes → Bytes × List Bytes
  | chunks, 0, buf => (buf, chunks)
  | [], _ + 1, buf => (buf, [])
  | c :: chunks, min + 1, buf =>
      if min + 1 < c.length then (buf ++ c.take (min + 1), c.drop (min + 1) :: chunks)
      else readAtLeast chunks (min + 1 - c.length) (buf ++ c)

/-- The error `io.ReadFull` reports when `got` bytes arrived before `fin`. -/
def shortRead (got : Bytes) (fin : GoError) : GoError :=
  if got ≠ [] ∧ fin = .eof then .unexpectedEOF else fin

/-- `io.ReadFull` into a buffer of `n` bytes. -/
def Conn.readFull (conn : Conn) (n : Nat) : Except GoError Bytes × Conn :=
  let (buf, chunks) := readAtLeast conn.chunks n []
  if buf.length < n then (.error (shortRead buf conn.fin), { conn with chunks })
  else (.ok buf, { conn with chunks })

/-- `io.ReadAll`: everything up to the end of the stream, which is no error here. -/
def Conn.readAll (conn : Conn) : Except GoError Bytes :=
  if conn.fin = .eof then .ok conn.bytes else .error conn.fin

theorem readAtLeast_fst (chunks : List Bytes) (n : Nat) (buf : Bytes) :
    (readAtLeast chunks n buf).1 = buf ++ chunks.flatten.take n := by
  fun_induction readAtLeast chunks n buf with
  | case1 chunks buf => simp
  | case2 n buf => simp
  | case3 c chunks n buf hlt =>
      rw [List.flatten_cons, List.take_append_of_le_length (by omega)]
  | case4 c chunks n buf hle ih =>
      rw [ih, List.flatten_cons, List.take_append,
        List.take_of_length_le (by omega : c.length ≤ n.succ)]
      simp

theorem readAtLeast_snd (chunks : List Bytes) (n : Nat) (buf : Bytes) :
    (readAtLeast chunks n buf).2.flatten = chunks.flatten.drop n := by
  fun_induction readAtLeast chunks n buf with
  | case1 chunks buf => simp
  | case2 n buf => simp
  | case3 c chunks n buf hlt =>
      rw [List.flatten_cons, List.flatten_cons, List.drop_append_of_le_length (by omega)]
  | case4 c chunks n buf hle ih =>
      rw [ih, List.flatten_cons, List.drop_append,
        List.drop_of_length_le (by omega : c.length ≤ n.succ)]
      simp

/-- What a read of `n` bytes returns and leaves behind, in terms of the bytes of
the connection alone. -/
theorem readFull_eq (conn : Conn) (n : Nat) :
    ∃ conn', conn.readFull n =
        (if conn.bytes.length < n then .error (shortRead conn.bytes conn.fin)
          else .ok (conn.bytes.take n), conn') ∧
      conn'.bytes = conn.bytes.drop n ∧ conn'.fin = conn.fin := by
  have hfst := readAtLeast_fst conn.chunks n []
  have hsnd := readAtLeast_snd conn.chunks n []
  rw [List.nil_append] at hfst
  refine ⟨{ conn with chunks := (readAtLeast conn.chunks n []).2 }, ?_, hsnd, rfl⟩
  have hlen : (readAtLeast conn.chunks n []).1.length < n ↔ conn.bytes.length < n := by
    rw [hfst, List.length_take, Conn.bytes]
    omega
  by_cases hn : conn.bytes.length < n
  · have htake : (readAtLeast conn.chunks n []).1 = conn.bytes := by
      rw [hfst]
      exact List.take_of_length_le (Nat.le_of_lt hn)
    simp only [Conn.readFull, htake, if_pos hn]
  · simp only [Conn.readFull, if_neg (hlen.not.mpr hn), if_neg hn]
    rw [hfst, Conn.bytes]

/-- Enough bytes are there: the read returns the first `n` of them and leaves
the others, whatever the chunks were. -/
theorem readFull_ok (conn : Conn) (n : Nat) (hn : n ≤ conn.bytes.length) :
    ∃ conn', conn.readFull n = (.ok (conn.bytes.take n), conn') ∧
      conn'.bytes = conn.bytes.drop n ∧ conn'.fin = conn.fin := by
  obtain ⟨conn', hread, hbytes, hfin⟩ := readFull_eq conn n
  rw [if_neg (Nat.not_lt.mpr hn)] at hread
  exact ⟨conn', hread, hbytes, hfin⟩

/-- Too few bytes are there: the read consumes them all and fails. -/
theorem readFull_error (conn : Conn) (n : Nat) (hn : conn.bytes.length < n) :
    ∃ conn', conn.readFull n = (.error (shortRead conn.bytes conn.fin), conn') ∧
      conn'.bytes = [] ∧ conn'.fin = conn.fin := by
  obtain ⟨conn', hread, hbytes, hfin⟩ := readFull_eq conn n
  rw [if_pos hn] at hread
  rw [List.drop_of_length_le (Nat.le_of_lt hn)] at hbytes
  exact ⟨conn', hread, hbytes, hfin⟩

/-- The writing side of a connection: `fault delivered buf` is `none` when a
`Write(buf)` issued after `delivered` sends the whole buffer, and `some (n, err)`
when it stops after `n` bytes with `err`. -/
structure Sink where
  fault : Bytes → Bytes → Option (Nat × GoError)

/-- `conn.Write(buf)`, with what the connection has delivered before and after. -/
def Sink.write (dst : Sink) (delivered buf : Bytes) : Except GoError Unit × Bytes :=
  match dst.fault delivered buf with
  | none => (.ok (), delivered ++ buf)
  | some (n, err) => (.error err, delivered ++ buf.take n)

/-- The connection on which every write succeeds. -/
def Sink.reliable : Sink := ⟨fun _ _ => none⟩

@[simp] theorem Sink.write_reliable (delivered buf : Bytes) :
    Sink.reliable.write delivered buf = (.ok (), delivered ++ buf) := rfl

end DraEnv.GoStd
