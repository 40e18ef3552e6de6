import SmartSchoolCdn.Foundation.Framing
import SmartSchoolCdn.Foundation.Text
import SmartSchoolCdn.Http
import Mathlib.Data.List.GetD

/-!
# The log stream

The demultiplexing of Docker's log streams in `routes/logs.ts`: the loop that the SSE mode runs
on its buffer each time a chunk arrives, and `stripDockerHeader`, which runs it on the whole
answer.  A frame is a header of eight bytes, with the length of the payload in the last four,
and the payload.

`decode` is `toString('utf8')`, and `line` what becomes of a line of a payload: `parseLine` and
the text of the event, `none` for a blank line.
-/

namespace SmartSchoolCdn.LogStream

open Streams

/-! ## The loops of the code -/

/-- `readUInt32BE`. -/
def readUInt32BE (buf : Bytes) (offset : ℕ) : ℕ :=
  ((buf.getD offset 0).toNat * 256 + (buf.getD (offset + 1) 0).toNat) * 65536 +
    ((buf.getD (offset + 2) 0).toNat * 256 + (buf.getD (offset + 3) 0).toNat)

/-- `buf.subarray(start, stop)`. -/
def subarray (buf : Bytes) (start stop : ℕ) : Bytes := (buf.take stop).drop start

/-- The body of the loop: the payload at an offset and the offset behind it, `none` where the
loop ends. -/
def frameAt (buf : Bytes) (offset : ℕ) : Option (Bytes × ℕ) :=
  if offset + 8 ≤ buf.length then
    let size := readUInt32BE buf (offset + 4)
    if offset + 8 + size > buf.length then none
    else some (subarray buf (offset + 8) (offset + 8 + size), offset + 8 + size)
  else none

/-- The loop from an offset on: the payloads and the offset at its end; `none` if it has not
ended after so many rounds. -/
def readFrames : ℕ → Bytes → ℕ → Option (List Bytes × ℕ)
  | 0, _, _ => none
  | fuel + 1, buf, offset =>
    match frameAt buf offset with
    | none => some ([], offset)
    | some (payload, next) =>
      (readFrames fuel buf next).map fun r => (payload :: r.1, r.2)

/-- `stripDockerHeader`; without a frame the answer is taken as text. -/
def stripDockerHeader (decode : Bytes → String) (fuel : ℕ) (chunk : Bytes) : Option String :=
  (readFrames fuel chunk 0).map fun r =>
    if r.1.length > 0 then String.join (r.1.map decode) else decode chunk

/-- The state of a stream: the buffer, what has been written, and whether the stream was closed.
The ghost `payloads` has every payload whose lines were written. -/
structure State where
  buf : Bytes := []
  written : List String := []
  closed : Bool := false
  payloads : List Bytes := []
  deriving DecidableEq, Repr

/-- What is written for a payload. -/
def writes (decode : Bytes → String) (line : String → Option String) (payload : Bytes) : List String :=
  (Text.split (decode payload) '\n').filterMap line

/-- A chunk arrives. -/
def onData (decode : Bytes → String) (line : String → Option String) (fuel : ℕ) (s : State)
    (chunk : Bytes) : Option State :=
  if s.closed then some s
  else
    let buf := s.buf ++ chunk
    (readFrames fuel buf 0).map fun r =>
      { s with
        buf := buf.drop r.2
        written := s.written ++ r.1.flatMap (writes decode line)
        payloads := s.payloads ++ r.1 }

/-- The stream ends, fails, or the client goes away. -/
def onClose (s : State) : State := { s with closed := true }

/-! ## The loop reads frames -/

/-- The two cases of a buffer. -/
lemma frameAt_eq_some {buf payload : Bytes} {offset next : ℕ} :
    frameAt buf offset = some (payload, next) ↔
      next = offset + 8 + readUInt32BE buf (offset + 4) ∧ next ≤ buf.length ∧
        payload = subarray buf (offset + 8) next := by
  unfold frameAt
  by_cases hheader : offset + 8 ≤ buf.length
  · rw [if_pos hheader]
    by_cases hsize : offset + 8 + readUInt32BE buf (offset + 4) > buf.length
    · simp only [if_pos hsize]
      constructor
      · rintro ⟨⟩
      · rintro ⟨rfl, hle, -⟩
        omega
    · simp only [if_neg hsize, Option.some.injEq, Prod.mk.injEq]
      constructor
      · rintro ⟨rfl, rfl⟩
        exact ⟨rfl, by omega, rfl⟩
      · rintro ⟨rfl, -, rfl⟩
        exact ⟨rfl, rfl⟩
  · rw [if_neg hheader]
    constructor
    · rintro ⟨⟩
    · rintro ⟨rfl, hle, -⟩
      omega

lemma readUInt32BE_append {buf m : Bytes} {offset : ℕ} (h : offset + 4 ≤ buf.length) :
    readUInt32BE (buf ++ m) offset = readUInt32BE buf offset := by
  simp only [readUInt32BE]
  rw [List.getD_append _ _ _ _ (by omega), List.getD_append _ _ _ _ (by omega),
    List.getD_append _ _ _ _ (by omega), List.getD_append _ _ _ _ (by omega)]

lemma readUInt32BE_drop (buf : Bytes) (k offset : ℕ) :
    readUInt32BE (buf.drop k) offset = readUInt32BE buf (k + offset) := by
  simp only [readUInt32BE, List.getD_eq_getElem?_getD, List.getElem?_drop, Nat.add_assoc]

lemma subarray_drop (buf : Bytes) (k start stop : ℕ) :
    subarray (buf.drop k) start stop = subarray buf (k + start) (k + stop) := by
  rw [subarray, subarray, List.take_drop, List.drop_drop]

/-- At an offset the body of the loop does what it does at the front of what is there. -/
lemma frameAt_drop {buf payload : Bytes} {k next : ℕ} :
    frameAt (buf.drop k) 0 = some (payload, next) ↔ frameAt buf k = some (payload, k + next) := by
  rw [frameAt_eq_some, frameAt_eq_some, readUInt32BE_drop, subarray_drop, List.length_drop, Nat.zero_add,
    Nat.zero_add, Nat.add_assoc k 8]
  constructor
  · rintro ⟨hnext, hle, hpayload⟩
    exact ⟨by omega, by omega, hpayload⟩
  · rintro ⟨hnext, hle, hpayload⟩
    exact ⟨by omega, by omega, hpayload⟩

/-- The frames of Docker's log streams. -/
def dockerFraming : Framing Bytes UInt8 where
  next buf := (frameAt buf 0).map fun r => (r.1, buf.drop r.2)
  shrinks := by
    intro buf payload rest h
    obtain ⟨⟨payload', next⟩, hframe, heq⟩ := Option.map_eq_some_iff.mp h
    obtain ⟨rfl, rfl⟩ := Prod.mk.inj heq
    obtain ⟨hnext, hle, -⟩ := frameAt_eq_some.mp hframe
    rw [List.length_drop]
    omega
  stable := by
    intro buf payload rest m h
    obtain ⟨⟨payload', next⟩, hframe, heq⟩ := Option.map_eq_some_iff.mp h
    obtain ⟨rfl, rfl⟩ := Prod.mk.inj heq
    obtain ⟨hnext, hle, hpayload⟩ := frameAt_eq_some.mp hframe
    have hframe' : frameAt (buf ++ m) 0 = some (payload', next) := by
      refine frameAt_eq_some.mpr ⟨?_, ?_, ?_⟩
      · rw [readUInt32BE_append (by omega)]
        exact hnext
      · rw [List.length_append]
        omega
      · rw [hpayload, subarray, subarray, List.take_append_of_le_length hle]
    rw [hframe', Option.map_some, List.drop_append_of_le_length hle]

lemma next_dockerFraming (buf : Bytes) :
    dockerFraming.next buf = (frameAt buf 0).map fun r => (r.1, buf.drop r.2) := rfl

/-- The loop reads frames. -/
lemma reads_of_readFrames {fuel : ℕ} {buf : Bytes} {offset last : ℕ} {payloads : List Bytes}
    (h : readFrames fuel buf offset = some (payloads, last)) :
    Reads dockerFraming (buf.drop offset) payloads (buf.drop last) := by
  induction fuel generalizing offset payloads with
  | zero => cases h
  | succ fuel ih =>
    rw [readFrames] at h
    cases hframe : frameAt buf offset with
    | none =>
      rw [hframe, Option.some.injEq, Prod.mk.injEq] at h
      obtain ⟨rfl, rfl⟩ := h
      refine .stop (Option.map_eq_none_iff.mpr (Option.eq_none_iff_forall_ne_some.mpr ?_))
      rintro ⟨payload, next⟩ hsome
      rw [frameAt_drop.mp hsome] at hframe
      cases hframe
    | some r =>
      obtain ⟨payload, next⟩ := r
      rw [hframe] at h
      obtain ⟨⟨payloads', last'⟩, hrest, heq⟩ := Option.map_eq_some_iff.mp h
      obtain ⟨rfl, rfl⟩ := Prod.mk.inj heq
      obtain ⟨hnext, -, -⟩ := frameAt_eq_some.mp hframe
      obtain ⟨k, rfl⟩ : ∃ k, next = offset + k := ⟨next - offset, by omega⟩
      have hhead : dockerFraming.next (buf.drop offset) = some (payload, buf.drop (offset + k)) := by
        rw [next_dockerFraming, frameAt_drop.mpr hframe, Option.map_some, List.drop_drop]
      exact .frame hhead (ih hrest)

/-- The loop ends: each round but the last goes on by a header at least. -/
lemma readFrames_isSome {fuel : ℕ} {buf : Bytes} {offset : ℕ} (hfuel : 0 < fuel)
    (h : buf.length < offset + 8 * fuel) : ∃ r, readFrames fuel buf offset = some r := by
  induction fuel generalizing offset with
  | zero => cases hfuel
  | succ fuel ih =>
    rw [readFrames]
    cases hframe : frameAt buf offset with
    | none => exact ⟨_, rfl⟩
    | some r =>
      obtain ⟨payload, next⟩ := r
      obtain ⟨hnext, hle, -⟩ := frameAt_eq_some.mp hframe
      obtain ⟨r, hr⟩ : ∃ r, readFrames fuel buf next = some r := ih (by omega) (by omega)
      refine ⟨(payload :: r.1, r.2), ?_⟩
      simp only [hr, Option.map_some]

/-! ## Frames -/

/-- A frame of a log stream; the length of the payload has 32 bits. -/
structure Frame where
  stream : UInt8
  payload : Bytes
  length_lt : payload.length < 2 ^ 32

/-- A length as four bytes, the highest first. -/
def beBytes (n : ℕ) : Bytes :=
  [UInt8.ofNat (n / 16777216), UInt8.ofNat (n / 65536), UInt8.ofNat (n / 256), UInt8.ofNat n]

/-- The bytes of a frame. -/
def Frame.encode (g : Frame) : Bytes := g.stream :: 0 :: 0 :: 0 :: (beBytes g.payload.length ++ g.payload)

lemma Frame.length_encode (g : Frame) : g.encode.length = 8 + g.payload.length := by
  simp only [encode, beBytes, List.length_cons, List.length_append, List.length_nil]
  omega

/-- The header says how long the payload is. -/
lemma readUInt32BE_encode (g : Frame) (m : Bytes) : readUInt32BE (g.encode ++ m) 4 = g.payload.length := by
  have hlt := g.length_lt
  simp only [readUInt32BE, Frame.encode, beBytes, List.cons_append, List.getD_cons_succ, List.getD_cons_zero,
    UInt8.toNat_ofNat']
  omega

/-- An encoded frame is read whatever is behind it. -/
lemma next_encode (g : Frame) (m : Bytes) : dockerFraming.next (g.encode ++ m) = some (g.payload, m) := by
  have hframe : frameAt (g.encode ++ m) 0 = some (g.payload, g.encode.length) := by
    refine frameAt_eq_some.mpr ⟨?_, ?_, ?_⟩
    · rw [Nat.zero_add, Nat.zero_add, readUInt32BE_encode, g.length_encode]
    · rw [List.length_append]
      exact Nat.le_add_right _ _
    · rw [subarray, List.take_left]
      rfl
  rw [next_dockerFraming, hframe, Option.map_some, List.drop_left]

/-- A part of a frame is not taken for a frame. -/
lemma next_part {g : Frame} {part : Bytes} (hpart : part <+: g.encode)
    (hlt : part.length < g.encode.length) : dockerFraming.next part = none := by
  obtain ⟨m, hm⟩ := hpart
  cases hnext : dockerFraming.next part with
  | none => rfl
  | some r =>
    have hwhole := dockerFraming.stable m hnext
    rw [hm, ← List.append_nil g.encode, next_encode, Option.some.injEq, Prod.mk.injEq] at hwhole
    obtain rfl : m = [] := (List.append_eq_nil_iff.mp hwhole.2.symm).2
    rw [List.append_nil] at hm
    rw [hm] at hlt
    exact absurd hlt (lt_irrefl _)

/-! ## Chunks -/

section Chunks

variable {decode : Bytes → String} {line : String → Option String} {fuel : ℕ}

/-- A chunk reads the frames that the buffer has with it. -/
lemma onData_spec {s : State} (hopen : s.closed = false) {chunk : Bytes}
    (hfuel : (s.buf ++ chunk).length < 8 * fuel) :
    ∃ payloads rest, Reads dockerFraming (s.buf ++ chunk) payloads rest ∧
      onData decode line fuel s chunk = some
        { s with
          buf := rest
          written := s.written ++ payloads.flatMap (writes decode line)
          payloads := s.payloads ++ payloads } := by
  obtain ⟨⟨payloads, last⟩, hread⟩ : ∃ r, readFrames fuel (s.buf ++ chunk) 0 = some r :=
    readFrames_isSome (by omega) (by omega)
  refine ⟨payloads, (s.buf ++ chunk).drop last, reads_of_readFrames hread, ?_⟩
  rw [onData, if_neg (by simp [hopen])]
  simp only [hread, Option.map_some]

/-- The chunks of a stream feed a reader of frames. -/
lemma feeds_of_chunks {s : State} (hopen : s.closed = false) {chunks : List Bytes}
    (hfuel : (s.buf ++ chunks.flatten).length < 8 * fuel) :
    ∃ payloads rest, Feeds dockerFraming s.buf chunks payloads rest ∧
      chunks.foldlM (onData decode line fuel) s = some
        { s with
          buf := rest
          written := s.written ++ payloads.flatMap (writes decode line)
          payloads := s.payloads ++ payloads } := by
  induction chunks generalizing s with
  | nil => exact ⟨[], s.buf, .nil, by simp⟩
  | cons chunk chunks ih =>
    rw [List.flatten_cons, ← List.append_assoc, List.length_append] at hfuel
    have hchunk : (s.buf ++ chunk).length < 8 * fuel := by omega
    obtain ⟨payloads, rest, hreads, hdata⟩ := @onData_spec decode line fuel s hopen chunk hchunk
    have hle := hreads.length_le
    have hrest : (rest ++ chunks.flatten).length < 8 * fuel := by
      rw [List.length_append]
      omega
    obtain ⟨payloads', rest', hfeeds, hrun⟩ := ih
      (s := { s with
        buf := rest
        written := s.written ++ payloads.flatMap (writes decode line)
        payloads := s.payloads ++ payloads }) hopen hrest
    refine ⟨payloads ++ payloads', rest', .cons hreads hfeeds, ?_⟩
    rw [List.foldlM_cons, hdata]
    exact hrun.trans (by rw [List.flatMap_append, List.append_assoc, List.append_assoc])

/-- After the stream was closed no chunk is looked at. -/
lemma foldlM_onClose (s : State) (chunks : List Bytes) :
    chunks.foldlM (onData decode line fuel) (onClose s) = some (onClose s) := by
  induction chunks with
  | nil => rfl
  | cons chunk chunks ih =>
    have hdata : onData decode line fuel (onClose s) chunk = some (onClose s) := if_pos rfl
    rw [List.foldlM_cons, hdata]
    exact ih

/-- Demultiplexing does not depend on the chunks.  However the bytes of some frames are split, the
loop ends on every chunk, has written the payloads of the first frames and keeps the part of the
next one that has arrived; in the end it has written every payload once and in order, and the
texts of them together are what `stripDockerHeader` makes of all bytes. -/
theorem log_stream_chunks (decode : Bytes → String) (line : String → Option String) {frames : List Frame}
    (hframes : frames ≠ []) {chunks : List Bytes} (hchunks : chunks.flatten = frames.flatMap Frame.encode)
    {fuel : ℕ} (hfuel : chunks.flatten.length < 8 * fuel) :
    (∀ pre post, chunks = pre ++ post → ∃ (s : State) (n : ℕ),
      pre.foldlM (onData decode line fuel) {} = some s ∧
      s.payloads = (frames.take n).map Frame.payload ∧
      s.written = s.payloads.flatMap (writes decode line) ∧
      pre.flatten = (frames.take n).flatMap Frame.encode ++ s.buf ∧
      ∀ g ∈ (frames.drop n).head?, s.buf <+: g.encode ∧ s.buf.length < g.encode.length) ∧
    ∃ s : State, chunks.foldlM (onData decode line fuel) {} = some s ∧
      s.payloads = frames.map Frame.payload ∧
      s.written = (frames.map Frame.payload).flatMap (writes decode line) ∧ s.buf = [] ∧
      stripDockerHeader decode fuel chunks.flatten = some (String.join (s.payloads.map decode)) := by
  constructor
  · rintro pre post rfl
    rw [List.flatten_append] at hchunks hfuel
    rw [List.length_append] at hfuel
    have hpre : ([] ++ pre.flatten).length < 8 * fuel := by
      rw [List.nil_append]
      omega
    obtain ⟨payloads, rest, hfeeds, hrun⟩ := @feeds_of_chunks decode line fuel {} rfl pre hpre
    have hreads := hfeeds.reads dockerFraming.next_nil
    rw [List.nil_append] at hreads
    obtain ⟨n, hn, hflat, hrest⟩ := Reads.of_prefix next_encode (fun _ _ => next_part)
      (hchunks ▸ List.prefix_append _ _) hreads
    exact ⟨_, n, hrun, hn, rfl, hflat, hrest⟩
  · have hwhole : Reads dockerFraming chunks.flatten (frames.map Frame.payload) [] := by
      have h := reads_encoded next_encode frames dockerFraming.next_nil
      rwa [List.append_nil, ← hchunks] at h
    obtain ⟨payloads, rest, hfeeds, hrun⟩ := @feeds_of_chunks decode line fuel {} rfl chunks hfuel
    have hreads := hfeeds.reads dockerFraming.next_nil
    rw [List.nil_append] at hreads
    obtain ⟨rfl, rfl⟩ := hreads.unique hwhole
    refine ⟨_, hrun, rfl, rfl, rfl, ?_⟩
    obtain ⟨⟨payloads', last⟩, hread⟩ : ∃ r, readFrames fuel chunks.flatten 0 = some r :=
      readFrames_isSome (by omega) (by omega)
    obtain ⟨rfl, -⟩ := (reads_of_readFrames hread).unique hwhole
    rw [stripDockerHeader, hread, Option.map_some, if_pos]
    · rfl
    · rw [List.length_map]
      exact List.length_pos_iff.mpr hframes

end Chunks

/-- ASCII text. -/
def sampleDecode (bytes : Bytes) : String := String.ofList (bytes.map fun b => Char.ofNat b.toNat)

/-- An event for every line that is not empty. -/
def sampleLine (raw : String) : Option String := if raw = "" then none else some ("data: " ++ raw)

/-- Two lines in one frame, an empty frame, and a frame of the other stream. -/
def sampleFrames : List Frame :=
  [⟨1, [97, 10, 98], by decide⟩, ⟨1, [], by decide⟩, ⟨2, [99], by decide⟩]

/-- Their bytes, split inside two headers. -/
def sampleChunks : List Bytes :=
  [[1, 0, 0, 0, 0], [0, 0, 3, 97, 10, 98, 1, 0, 0, 0, 0, 0, 0], [0, 2, 0, 0, 0, 0, 0, 0, 1], [99]]

/-- The events of the sample. -/
theorem log_stream_sample :
    ∃ s : State, sampleChunks.foldlM (onData sampleDecode sampleLine 5) {} = some s ∧
      s.payloads = [[97, 10, 98], [], [99]] ∧ s.written = ["data: a", "data: b", "data: c"] ∧
      s.buf = [] ∧ stripDockerHeader sampleDecode 5 sampleChunks.flatten = some "a\nbc" := by
  have hframes : sampleFrames ≠ [] := List.cons_ne_nil _ _
  obtain ⟨s, hrun, hpayloads, hwritten, hbuf, hstrip⟩ :=
    (@log_stream_chunks sampleDecode sampleLine sampleFrames hframes sampleChunks (by decide) 5
      (by decide)).2
  exact ⟨s, hrun, hpayloads, hwritten.trans (by decide), hbuf,
    hstrip.trans (by rw [hpayloads]; decide)⟩

end SmartSchoolCdn.LogStream
