import ProgrammableSolana.Lib.Exec
import ProgrammableSolana.Lib.Bytes

/-! Cursor-based readers and writers over byte strings, and codecs that carry the proof
that reading and writing undo each other. -/
namespace ProgrammableSolana.Lib

/-- How a codec stops: a rejection it reports, or an index outside its buffer. -/
inductive Fault (ε : Type) where
  | codec (e : ε)
  | outOfBounds
  deriving DecidableEq, Repr

section Reading

variable {ε α : Type}

/-- A step of a decoder over `data`, starting at a cursor and advancing it. -/
abbrev Reader (ε α : Type) : Type := Exec ℕ (Fault ε) α

def readArray (data : List UInt8) (n : ℕ) : Reader ε (Bytes n) := fun cursor =>
  if h : cursor + n ≤ data.length then
    (.ok ⟨(data.drop cursor).take n, by rw [List.length_take, List.length_drop]; omega⟩, cursor + n)
  else
    (.error .outOfBounds, cursor)

def readU8 (data : List UInt8) : Reader ε UInt8 := fun cursor =>
  if h : cursor < data.length then (.ok data[cursor], cursor + 1) else (.error .outOfBounds, cursor)

def readU16 (data : List UInt8) : Reader ε UInt16 := do
  let bytes ← readArray data 2
  return u16FromLeBytes bytes

def readU64 (data : List UInt8) : Reader ε UInt64 := do
  let bytes ← readArray data 8
  return u64FromLeBytes bytes

/-- A check made in the middle of decoding. -/
def check (x : Except ε α) : Reader ε α := Exec.ofExcept (x.mapError Fault.codec)

/-- A decoder's result, with the cursor dropped. -/
def Reader.decode (r : Reader ε α) : Except (Fault ε) α := (r.run 0).1

/-- `copy_from_slice` into an array of length `n`. -/
def copyFromSlice (n : ℕ) (slice : List UInt8) : Except (Fault ε) (Bytes n) :=
  if h : slice.length = n then .ok ⟨slice, h⟩ else .error .outOfBounds

theorem copyFromSlice_ok_iff {n : ℕ} {slice : List UInt8} {b : Bytes n} :
    (copyFromSlice n slice : Except (Fault ε) (Bytes n)) = .ok b ↔ slice = b.toList := by
  unfold copyFromSlice
  constructor
  · intro h
    split at h
    · cases h
      rfl
    · cases h
  · intro h
    have hlen : slice.length = n := by rw [h, b.length_toList]
    rw [dif_pos hlen]
    exact congrArg Except.ok (Bytes.ext h)

theorem readArray_ok_iff {data : List UInt8} {n c c' : ℕ} {b : Bytes n} :
    (readArray data n : Reader ε (Bytes n)).run c = (.ok b, c') ↔
      c' = c + n ∧ c' ≤ data.length ∧ (data.drop c).take n = b.toList := by
  unfold readArray Exec.run
  by_cases h : c + n ≤ data.length
  · simp only [h, dif_pos, Prod.mk.injEq, Except.ok.injEq]
    constructor
    · rintro ⟨rfl, rfl⟩
      exact ⟨rfl, h, rfl⟩
    · rintro ⟨rfl, -, hb⟩
      exact ⟨Bytes.ext hb, rfl⟩
  · simp only [h, dif_neg, not_false_eq_true, Prod.mk.injEq, reduceCtorEq, false_and, false_iff]
    rintro ⟨rfl, hle, -⟩
    exact h hle

theorem readU8_ok_iff {data : List UInt8} {c c' : ℕ} {b : UInt8} :
    (readU8 data : Reader ε UInt8).run c = (.ok b, c') ↔
      c' = c + 1 ∧ c' ≤ data.length ∧ (data.drop c).take 1 = [b] := by
  unfold readU8 Exec.run
  by_cases h : c < data.length
  · have hd : (data.drop c).take 1 = [data[c]] := by
      rw [List.drop_eq_getElem_cons h, List.take_succ_cons, List.take_zero]
    simp only [h, dif_pos, Prod.mk.injEq, Except.ok.injEq, hd, List.cons.injEq, and_true]
    constructor
    · rintro ⟨rfl, rfl⟩
      exact ⟨rfl, h, rfl⟩
    · rintro ⟨rfl, -, rfl⟩
      exact ⟨rfl, rfl⟩
  · simp only [h, dif_neg, not_false_eq_true, Prod.mk.injEq, reduceCtorEq, false_and, false_iff]
    rintro ⟨rfl, hle, -⟩
    omega

theorem readArray_inBounds {data : List UInt8} {n c : ℕ} (h : c + n ≤ data.length) :
    ∃ b, (readArray data n : Reader ε (Bytes n)).run c = (.ok b, c + n) :=
  ⟨_, dif_pos h⟩

theorem readU8_inBounds {data : List UInt8} {c : ℕ} (h : c + 1 ≤ data.length) :
    ∃ b, (readU8 data : Reader ε UInt8).run c = (.ok b, c + 1) :=
  ⟨_, dif_pos h⟩

end Reading

/-- A fixed-width codec. `read_ok_iff` says that reading accepts exactly the encodings of
valid values and `read_inBounds` that it never leaves a buffer with enough bytes left. -/
structure Codec (ε α : Type) where
  width : ℕ
  Valid : α → Prop
  enc : α → List UInt8
  read : List UInt8 → Reader ε α
  length_enc : ∀ a, (enc a).length = width
  read_ok_iff : ∀ {data c a c'}, (read data).run c = (.ok a, c') ↔
    Valid a ∧ c' = c + width ∧ c' ≤ data.length ∧ (data.drop c).take width = enc a
  read_inBounds : ∀ {data c}, c + width ≤ data.length →
    ((read data).run c).1 ≠ .error .outOfBounds

namespace Codec

variable {ε α β : Type}

def bytes (n : ℕ) : Codec ε (Bytes n) where
  width := n
  Valid _ := True
  enc b := b.toList
  read data := readArray data n
  length_enc b := b.length_toList
  read_ok_iff := by simp [readArray_ok_iff]
  read_inBounds h := by
    obtain ⟨b, hb⟩ := readArray_inBounds (ε := ε) h
    simp [hb]

def u8 : Codec ε UInt8 where
  width := 1
  Valid _ := True
  enc b := [b]
  read data := readU8 data
  length_enc _ := rfl
  read_ok_iff := by simp [readU8_ok_iff]
  read_inBounds h := by
    obtain ⟨b, hb⟩ := readU8_inBounds (ε := ε) h
    simp [hb]

/-- A codec for values that correspond one to one to values another codec handles. -/
def map (c : Codec ε α) (f : α → β) (g : β → α) (hgf : ∀ a, g (f a) = a) (hfg : ∀ b, f (g b) = b) :
    Codec ε β where
  width := c.width
  Valid b := c.Valid (g b)
  enc b := c.enc (g b)
  read data := do
    let a ← c.read data
    return f a
  length_enc b := c.length_enc (g b)
  read_ok_iff := by
    intro data cur b cur'
    simp only [Exec.bind_ok_iff, Exec.pure_ok_iff, c.read_ok_iff]
    constructor
    · rintro ⟨a, _, h, rfl, rfl⟩
      rwa [hgf]
    · intro h
      exact ⟨g b, cur', h, hfg b, rfl⟩
  read_inBounds := by
    intro data cur h
    have hc := c.read_inBounds h
    rw [Exec.run_bind]
    rcases hr : (c.read data).run cur with ⟨e | a, cur'⟩
    · simpa [hr] using hc
    · simp

def pair (c : Codec ε α) (d : Codec ε β) : Codec ε (α × β) where
  width := c.width + d.width
  Valid p := c.Valid p.1 ∧ d.Valid p.2
  enc p := c.enc p.1 ++ d.enc p.2
  read data := do
    let a ← c.read data
    let b ← d.read data
    return (a, b)
  length_enc p := by rw [List.length_append, c.length_enc, d.length_enc]
  read_ok_iff := by
    rintro data cur ⟨a, b⟩ cur'
    simp only [Exec.bind_ok_iff, Exec.pure_ok_iff, c.read_ok_iff, d.read_ok_iff, Prod.mk.injEq]
    constructor
    · rintro ⟨_, _, ⟨hva, rfl, -, ha⟩, _, _, ⟨hvb, rfl, hle, hb⟩, ⟨rfl, rfl⟩, rfl⟩
      refine ⟨⟨hva, hvb⟩, by omega, hle, ?_⟩
      rw [List.take_add, ha, List.drop_drop, hb]
    · rintro ⟨⟨hva, hvb⟩, rfl, hle, h⟩
      rw [List.take_add, List.drop_drop] at h
      have hlen : ((data.drop cur).take c.width).length = (c.enc a).length := by
        rw [c.length_enc, List.length_take, List.length_drop]
        omega
      obtain ⟨ha, hb⟩ := List.append_inj h hlen
      exact ⟨a, _, ⟨hva, rfl, by omega, ha⟩, b, _, ⟨hvb, by omega, hle, hb⟩, ⟨rfl, rfl⟩, rfl⟩
  read_inBounds := by
    intro data cur h
    have hc : ((c.read data).run cur).1 ≠ .error .outOfBounds := c.read_inBounds (by omega)
    rcases hr : (c.read data).run cur with ⟨e | a, cur₁⟩
    · rw [Exec.run_bind_of_error hr]
      simpa [hr] using hc
    · obtain ⟨-, rfl, -⟩ := c.read_ok_iff.mp hr
      have hd : ((d.read data).run (cur + c.width)).1 ≠ .error .outOfBounds :=
        d.read_inBounds (by omega)
      rw [Exec.run_bind_of_ok hr, Exec.run_bind]
      rcases hs : (d.read data).run (cur + c.width) with ⟨e | b, cur₂⟩
      · simpa [hs] using hd
      · simp

/-- A value that is read back only to be checked: the encoding always writes `a`. -/
def literal (c : Codec ε α) (a : α) (p : α → Except ε Unit) (ha : c.Valid a)
    (hp : ∀ x, p x = .ok () ↔ x = a) : Codec ε Unit where
  width := c.width
  Valid _ := True
  enc _ := c.enc a
  read data := do
    let x ← c.read data
    check (p x)
  length_enc _ := c.length_enc a
  read_ok_iff := by
    intro data cur _ cur'
    simp only [Exec.bind_ok_iff, check, Exec.ofExcept_ok_iff, mapError_ok_iff, hp, c.read_ok_iff]
    constructor
    · rintro ⟨_, _, ⟨-, h⟩, rfl, rfl⟩
      exact ⟨trivial, h⟩
    · rintro ⟨-, h⟩
      exact ⟨a, cur', ⟨ha, h⟩, rfl, rfl⟩
  read_inBounds := by
    intro data cur h
    have hc := c.read_inBounds h
    rw [Exec.run_bind]
    rcases hr : (c.read data).run cur with ⟨e | x, cur'⟩
    · simpa [hr] using hc
    · rcases hx : p x <;> simp [check, hx, Except.mapError]

/-- A codec that accepts only the values a further check lets through. -/
def guard (c : Codec ε α) (p : α → Except ε Unit) : Codec ε α where
  width := c.width
  Valid a := c.Valid a ∧ p a = .ok ()
  enc := c.enc
  read data := do
    let a ← c.read data
    check (p a)
    return a
  length_enc := c.length_enc
  read_ok_iff := by
    intro data cur a cur'
    simp only [Exec.bind_ok_iff, check, Exec.ofExcept_ok_iff, mapError_ok_iff, Exec.pure_ok_iff,
      c.read_ok_iff]
    constructor
    · rintro ⟨_, _, ⟨hv, h⟩, _, _, ⟨hp, rfl⟩, rfl, rfl⟩
      exact ⟨⟨hv, hp⟩, h⟩
    · rintro ⟨⟨hv, hp⟩, h⟩
      exact ⟨a, cur', ⟨hv, h⟩, (), cur', ⟨hp, rfl⟩, rfl, rfl⟩
  read_inBounds := by
    intro data cur h
    have hc := c.read_inBounds h
    rw [Exec.run_bind]
    rcases hr : (c.read data).run cur with ⟨e | a, cur'⟩
    · simpa [hr] using hc
    · rcases hx : p a <;>
        simp only [Exec.run_bind, check, hx, Except.mapError, Exec.run_ofExcept, Exec.run_pure, ne_eq,
          Except.error.injEq, reduceCtorEq, not_false_eq_true]

def u16 : Codec ε UInt16 :=
  (bytes 2).map u16FromLeBytes u16LeBytes u16LeBytes_u16FromLeBytes u16FromLeBytes_u16LeBytes

def u64 : Codec ε UInt64 :=
  (bytes 8).map u64FromLeBytes u64LeBytes u64LeBytes_u64FromLeBytes u64FromLeBytes_u64LeBytes

@[simp] theorem bytes_valid (n : ℕ) (b : Bytes n) : (bytes n : Codec ε (Bytes n)).Valid b := trivial

@[simp] theorem u8_valid (x : UInt8) : (u8 : Codec ε UInt8).Valid x := trivial

@[simp] theorem u16_valid (x : UInt16) : (u16 : Codec ε UInt16).Valid x := trivial

@[simp] theorem u64_valid (x : UInt64) : (u64 : Codec ε UInt64).Valid x := trivial

@[simp] theorem map_valid_iff (c : Codec ε α) (f : α → β) (g : β → α) (hgf : ∀ a, g (f a) = a)
    (hfg : ∀ b, f (g b) = b) (b : β) : (c.map f g hgf hfg).Valid b ↔ c.Valid (g b) := Iff.rfl

@[simp] theorem pair_valid_iff (c : Codec ε α) (d : Codec ε β) (p : α × β) :
    (c.pair d).Valid p ↔ c.Valid p.1 ∧ d.Valid p.2 := Iff.rfl

@[simp] theorem guard_valid_iff (c : Codec ε α) (p : α → Except ε Unit) (a : α) :
    (c.guard p).Valid a ↔ c.Valid a ∧ p a = .ok () := Iff.rfl

/-- Reading a whole string of the codec's width accepts exactly the encodings. -/
theorem decode_eq_ok_iff (c : Codec ε α) {data : List UInt8} {a : α} (hlen : data.length = c.width) :
    (c.read data).decode = .ok a ↔ c.Valid a ∧ data = c.enc a := by
  have key : (c.read data).decode = .ok a ↔ ∃ cur', (c.read data).run 0 = (.ok a, cur') := by
    unfold Reader.decode
    rcases (c.read data).run 0 with ⟨x, cur'⟩
    simp
  simp only [key, c.read_ok_iff, List.drop_zero, Nat.zero_add]
  constructor
  · rintro ⟨_, hv, rfl, -, h⟩
    exact ⟨hv, by rwa [← hlen, List.take_length] at h⟩
  · rintro ⟨hv, h⟩
    exact ⟨_, hv, rfl, by omega, by rwa [← hlen, List.take_length]⟩

/-- A decoder that first insists on the codec's width accepts exactly the encodings. -/
theorem require_decode_eq_ok_iff (c : Codec ε α) {n : ℕ} (hn : c.width = n) {data : List UInt8}
    {e : Fault ε} {a : α} :
    (require (data.length = n) e >>= fun _ => (c.read data).decode) = .ok a ↔
      c.Valid a ∧ data = c.enc a := by
  simp only [except_bind_ok_iff, require_ok_iff]
  constructor
  · rintro ⟨_, hlen, h⟩
    exact (c.decode_eq_ok_iff (hlen.trans hn.symm)).mp h
  · rintro ⟨hv, rfl⟩
    have hlen : (c.enc a).length = n := (c.length_enc a).trans hn
    exact ⟨(), hlen, (c.decode_eq_ok_iff (c.length_enc a)).mpr ⟨hv, rfl⟩⟩

/-- No two valid values share an encoding. -/
theorem enc_injective (c : Codec ε α) {a b : α} (ha : c.Valid a) (hb : c.Valid b)
    (h : c.enc a = c.enc b) : a = b := by
  have hda := (c.decode_eq_ok_iff (c.length_enc a)).mpr ⟨ha, rfl⟩
  have hdb := (c.decode_eq_ok_iff (c.length_enc b)).mpr ⟨hb, rfl⟩
  rw [h, hdb] at hda
  injection hda with hab
  exact hab.symm

/-- The strings a codec accepts. -/
def Accepts (c : Codec ε α) (data : List UInt8) : Prop := ∃ a, c.Valid a ∧ data = c.enc a

theorem Accepts.length {c : Codec ε α} {data : List UInt8} (h : c.Accepts data) :
    data.length = c.width := by
  obtain ⟨a, -, rfl⟩ := h
  exact c.length_enc a

theorem map_accepts_iff (c : Codec ε α) (f : α → β) (g : β → α) (hgf : ∀ a, g (f a) = a)
    (hfg : ∀ b, f (g b) = b) {data : List UInt8} :
    (c.map f g hgf hfg).Accepts data ↔ c.Accepts data := by
  constructor
  · rintro ⟨b, hv, hd⟩
    exact ⟨g b, hv, hd⟩
  · rintro ⟨a, hv, hd⟩
    refine ⟨f a, ?_, ?_⟩
    · rwa [map_valid_iff, hgf]
    · exact hd.trans (congrArg c.enc (hgf a).symm)

theorem pair_accepts_iff (c : Codec ε α) (d : Codec ε β) {data : List UInt8} :
    (c.pair d).Accepts data ↔
      c.Accepts (data.take c.width) ∧ d.Accepts (data.drop c.width) := by
  constructor
  · rintro ⟨⟨a, b⟩, ⟨hva, hvb⟩, rfl⟩
    have hlen := c.length_enc a
    exact ⟨⟨a, hva, List.take_left' hlen⟩, ⟨b, hvb, List.drop_left' hlen⟩⟩
  · rintro ⟨⟨a, hva, ha⟩, ⟨b, hvb, hb⟩⟩
    refine ⟨(a, b), ⟨hva, hvb⟩, ?_⟩
    have hd : data = c.enc a ++ d.enc b := by rw [← ha, ← hb, List.take_append_drop]
    exact hd

theorem literal_accepts_iff (c : Codec ε α) (a : α) (p : α → Except ε Unit) (ha : c.Valid a)
    (hp : ∀ x, p x = .ok () ↔ x = a) {data : List UInt8} :
    (c.literal a p ha hp).Accepts data ↔ data = c.enc a :=
  ⟨fun h => h.choose_spec.2, fun h => ⟨(), trivial, h⟩⟩

/-- A codec that accepts every string of its width. -/
def Total (c : Codec ε α) : Prop := ∀ data : List UInt8, data.length = c.width → c.Accepts data

theorem Total.accepts_iff {c : Codec ε α} (h : c.Total) {data : List UInt8} :
    c.Accepts data ↔ data.length = c.width := ⟨Accepts.length, h data⟩

theorem bytes_total (n : ℕ) : (bytes n : Codec ε (Bytes n)).Total := fun data hlen =>
  ⟨⟨data, hlen⟩, trivial, rfl⟩

theorem u8_total : (u8 : Codec ε UInt8).Total := fun data hlen => by
  obtain ⟨b, rfl⟩ := List.length_eq_one_iff.mp hlen
  exact ⟨b, trivial, rfl⟩

theorem map_total {c : Codec ε α} (h : c.Total) {f : α → β} {g : β → α} {hgf : ∀ a, g (f a) = a}
    {hfg : ∀ b, f (g b) = b} : (c.map f g hgf hfg).Total := fun data hlen =>
  (c.map_accepts_iff f g hgf hfg).mpr (h data hlen)

theorem u16_total : (u16 : Codec ε UInt16).Total := map_total (bytes_total 2)

theorem u64_total : (u64 : Codec ε UInt64).Total := map_total (bytes_total 8)

theorem pair_total {c : Codec ε α} {d : Codec ε β} (hc : c.Total) (hd : d.Total) :
    (c.pair d).Total := by
  intro data hlen
  have hwidth : (c.pair d).width = c.width + d.width := rfl
  rw [pair_accepts_iff, hc.accepts_iff, hd.accepts_iff, List.length_take, List.length_drop]
  constructor <;> omega

theorem guard_u8_accepts_iff (p : UInt8 → Except ε Unit) {data : List UInt8} :
    ((u8 : Codec ε UInt8).guard p).Accepts data ↔ ∃ x, data = [x] ∧ p x = .ok () := by
  constructor
  · rintro ⟨x, ⟨-, hp⟩, hd⟩
    exact ⟨x, hd, hp⟩
  · rintro ⟨x, hd, hp⟩
    exact ⟨x, ⟨trivial, hp⟩, hd⟩

/-- Where the cursor is after a successful read from the front. -/
theorem read_cursor (c : Codec ε α) {data : List UInt8} {a : α} {cursor : ℕ}
    (h : (c.read data).run 0 = (.ok a, cursor)) : cursor = c.width := by
  obtain ⟨-, hcursor, -⟩ := c.read_ok_iff.mp h
  rwa [Nat.zero_add] at hcursor

/-- What is read is what the data starts with. -/
theorem decode_ok (c : Codec ε α) {data : List UInt8} {a : α} (h : (c.read data).decode = .ok a) :
    c.Valid a ∧ data.take c.width = c.enc a := by
  unfold Reader.decode at h
  have hrun : (c.read data).run 0 = (.ok a, ((c.read data).run 0).2) := Prod.ext h rfl
  obtain ⟨hvalid, -, -, hbytes⟩ := c.read_ok_iff.mp hrun
  rw [List.drop_zero] at hbytes
  exact ⟨hvalid, hbytes⟩

/-- Bytes after an encoding are not read. -/
theorem decode_append (c : Codec ε α) {a : α} (h : c.Valid a) (rest : List UInt8) :
    (c.read (c.enc a ++ rest)).decode = .ok a := by
  have hlen := c.length_enc a
  have hrun : (c.read (c.enc a ++ rest)).run 0 = (.ok a, c.width) := by
    apply c.read_ok_iff.mpr
    refine ⟨h, by omega, ?_, ?_⟩
    · rw [List.length_append]
      omega
    · rw [List.drop_zero, ← hlen, List.take_left']
      rfl
  unfold Reader.decode
  rw [hrun]

theorem decode_ne_outOfBounds (c : Codec ε α) {data : List UInt8} (hlen : c.width ≤ data.length) :
    (c.read data).decode ≠ .error .outOfBounds :=
  c.read_inBounds (by omega)

theorem require_decode_ne_outOfBounds (c : Codec ε α) {n : ℕ} (hn : c.width = n)
    {data : List UInt8} {e : ε} :
    (require (data.length = n) (.codec e) >>= fun _ => (c.read data).decode) ≠
      .error .outOfBounds := by
  intro h
  rcases except_bind_error_iff.mp h with h | ⟨_, hlen, h⟩
  · simp at h
  · rw [require_ok_iff] at hlen
    exact c.decode_ne_outOfBounds (by omega) h

end Codec

section Writing

variable {ε : Type}

/-- A zeroed output array of fixed length, written from the front: what was written so far, last
byte first, and the room left behind the cursor. -/
structure Buffer where
  written : List UInt8
  room : ℕ

/-- The array as it stands. -/
def Buffer.output (b : Buffer) : List UInt8 := b.written.reverse ++ List.replicate b.room 0

def putBytes (value : List UInt8) : Exec Buffer (Fault ε) Unit := fun b =>
  if value.length ≤ b.room then
    (.ok (), ⟨value.reverse ++ b.written, b.room - value.length⟩)
  else
    (.error .outOfBounds, b)

def putAll : List (List UInt8) → Exec Buffer (Fault ε) Unit
  | [] => pure ()
  | chunk :: chunks => do
    putBytes chunk
    putAll chunks

/-- Runs a writer on a zeroed buffer of length `n` and returns the buffer. A writer that stops short
of the end fails too: it is a slice copied into a longer one, or a failed `debug_assert_eq!`. -/
def fill (n : ℕ) (w : Exec Buffer (Fault ε) Unit) : Except (Fault ε) (List UInt8) :=
  match w.run ⟨[], n⟩ with
  | (.ok _, b) => if b.room = 0 then .ok b.output else .error .outOfBounds
  | (.error e, _) => .error e

theorem putAll_run (chunks : List (List UInt8)) (b : Buffer) (h : chunks.flatten.length ≤ b.room) :
    (putAll chunks : Exec Buffer (Fault ε) Unit).run b =
      (.ok (), ⟨chunks.flatten.reverse ++ b.written, b.room - chunks.flatten.length⟩) := by
  induction chunks generalizing b with
  | nil => simp [putAll]
  | cons chunk chunks ih =>
    rw [List.flatten_cons, List.length_append] at h
    have hput : (putBytes chunk : Exec Buffer (Fault ε) Unit).run b =
        (.ok (), ⟨chunk.reverse ++ b.written, b.room - chunk.length⟩) :=
      if_pos (Nat.le_of_add_right_le h)
    rw [putAll, Exec.run_bind_of_ok hput, ih _ (Nat.le_sub_of_add_le' h)]
    simp [Nat.sub_sub]

theorem fill_putAll {n : ℕ} {chunks : List (List UInt8)} (h : chunks.flatten.length = n) :
    fill n (putAll chunks : Exec Buffer (Fault ε) Unit) = .ok chunks.flatten := by
  have hrun := putAll_run (ε := ε) chunks ⟨[], n⟩ (Nat.le_of_eq h)
  rw [fill, hrun]
  simp [Buffer.output, h]

/-- A writer that puts the chunks of a codec's encoding into a buffer of its width fills it. -/
theorem fill_enc {α : Type} (c : Codec ε α) {n : ℕ} {a : α} {chunks : List (List UInt8)}
    (hn : c.width = n) (h : chunks.flatten = c.enc a) :
    fill n (putAll chunks : Exec Buffer (Fault ε) Unit) = .ok (c.enc a) := by
  have hlen : chunks.flatten.length = n := by rw [h, c.length_enc, hn]
  rw [fill_putAll hlen, h]

end Writing

/-- A format of `n` bytes: decoding accepts exactly the encodings, and neither side leaves its
buffer. -/
structure ExactFormat {ε α : Type} (n : ℕ) (encode : α → Except (Fault ε) (List UInt8))
    (decode : List UInt8 → Except (Fault ε) α) : Prop where
  decode_ok_iff : ∀ {data a}, decode data = .ok a ↔ encode a = .ok data
  length : ∀ {a data}, encode a = .ok data → data.length = n
  encode_inBounds : ∀ a, encode a ≠ .error .outOfBounds
  decode_inBounds : ∀ data, decode data ≠ .error .outOfBounds

section Formats

variable {ε α : Type} {n : ℕ} {encode : α → Except (Fault ε) (List UInt8)}
  {decode : List UInt8 → Except (Fault ε) α}

/-- A format whose two sides are those of one codec is exact. -/
theorem Codec.exactFormat (c : Codec ε α) (hn : c.width = n) (e : List UInt8 → ε)
    (hencode : ∀ {a data}, encode a = .ok data ↔ c.Valid a ∧ data = c.enc a)
    (hbounds : ∀ a, encode a ≠ .error .outOfBounds)
    (hdecode : ∀ data, decode data =
      (require (data.length = n) (.codec (e data)) >>= fun _ => (c.read data).decode)) :
    ExactFormat n encode decode where
  decode_ok_iff := by
    intro data a
    rw [hdecode, c.require_decode_eq_ok_iff hn, hencode]
  length := by
    intro a data h
    obtain ⟨-, rfl⟩ := hencode.mp h
    exact (c.length_enc a).trans hn
  encode_inBounds := hbounds
  decode_inBounds := by
    intro data
    rw [hdecode]
    exact c.require_decode_ne_outOfBounds hn

/-- The strings such a format accepts are those its codec accepts. -/
theorem ExactFormat.accepted_iff (h : ExactFormat n encode decode) (c : Codec ε α)
    (hencode : ∀ {a data}, encode a = .ok data ↔ c.Valid a ∧ data = c.enc a)
    {data : List UInt8} : (∃ a, decode data = .ok a) ↔ c.Accepts data := by
  simp only [h.decode_ok_iff, hencode]
  rfl

/-- A successful read from the front leaves the cursor at `n`. -/
def EndsAt (read : List UInt8 → Reader ε α) (n : ℕ) : Prop :=
  ∀ data a cursor, (read data).run 0 = (.ok a, cursor) → cursor = n

theorem Codec.endsAt (c : Codec ε α) (hn : c.width = n) {read : List UInt8 → Reader ε α}
    (hread : ∀ data, read data = c.read data) : EndsAt read n := by
  intro data a cursor h
  rw [hread] at h
  exact (c.read_cursor h).trans hn

/-- A guarded codec reads, then checks. -/
theorem Codec.guard_decode (c : Codec ε α) (p : α → Except ε Unit) (data : List UInt8) :
    ((c.guard p).read data).decode = (do
      let a ← (c.read data).decode
      (p a).mapError .codec
      return a) := by
  unfold Reader.decode guard
  simp only [Exec.run_bind]
  rcases (c.read data).run 0 with ⟨e | a, cursor⟩
  · rfl
  · cases hp : p a with
    | error e => simp [check, hp, Except.mapError, bind, Except.bind]
    | ok u =>
      simp only [check, hp, Except.mapError, Exec.run_ofExcept, Exec.run_pure, except_ok_bind]
      rfl

theorem mapError_bind_ok_iff {β : Type} {x : Except ε Unit} {y z : β} :
    (x.mapError Fault.codec >>= fun _ => (.ok y : Except (Fault ε) β)) = .ok z ↔
      x = .ok () ∧ z = y := by
  cases x with
  | error e => simp [Except.mapError, bind, Except.bind]
  | ok u => simp [Except.mapError, bind, Except.bind, eq_comm]

theorem mapError_bind_ok_ne_outOfBounds {β : Type} {x : Except ε Unit} {y : β} :
    (x.mapError Fault.codec >>= fun _ => (.ok y : Except (Fault ε) β)) ≠ .error .outOfBounds := by
  cases x <;> simp [Except.mapError, bind, Except.bind]

end Formats

section Tags

/-- Two strings that neither extend each other differ whatever is put behind them. -/
theorem append_ne_append {tag tag' x y : List UInt8} (h : ¬ tag <+: tag') (h' : ¬ tag' <+: tag) :
    tag ++ x ≠ tag' ++ y := by
  intro heq
  have htag : tag <+: tag' ++ y := heq ▸ List.prefix_append tag x
  rcases List.prefix_or_prefix_of_prefix htag (List.prefix_append tag' y) with hp | hp
  · exact h hp
  · exact h' hp

end Tags

end ProgrammableSolana.Lib
