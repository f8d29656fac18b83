import Mathlib.Data.List.Infix
import SnippetKernel.Wire.Frame

/-! Byte arrays as lists of bytes, and what UTF-8 makes of a text.

Frames end at the first sentinel, however the bytes come in. A reader looks only at the last bytes of
what it had; that this is enough rests on one invariant, that no sentinel stands in what it had.

Bytes that are followed by the end of the stream. What a reader makes of them is a function of the bytes alone:
how they are cut into reads plays no part, also where a cut goes through the sentinel, or through bytes that begin
like it. -/
namespace SnippetKernel.Wire

def octets (b : ByteArray) : List UInt8 := b.data.toList

@[simp] theorem octets_empty : octets .empty = [] := rfl

@[simp] theorem octets_append (a b : ByteArray) : octets (a ++ b) = octets a ++ octets b := by
  simp [octets]

@[simp] theorem length_octets (b : ByteArray) : (octets b).length = b.size := rfl

theorem octets_inj {a b : ByteArray} : octets a = octets b ↔ a = b := by
  constructor
  · intro same
    exact ByteArray.ext (Array.toList_inj.1 same)
  · rintro rfl
    rfl

theorem octets_extract (b : ByteArray) (i j : Nat) :
    octets (b.extract i j) = ((octets b).drop i).take (j - i) := by
  simp [octets]

theorem octets_toByteArray (bytes : List UInt8) : octets bytes.toByteArray = bytes := by
  simp [octets]

theorem octets_sentinel : octets sentinel = sentinelBytes := rfl

theorem sentinelBytes_eq : sentinelBytes = [10, 95, 95, 69, 78, 68, 95, 95, 10] := by decide

theorem octets_toUTF8 (text : String) :
    octets text.toUTF8 = text.toList.flatMap String.utf8EncodeChar := by
  rw [String.toUTF8_eq_toByteArray, ← String.utf8Encode_toList, List.utf8Encode, octets]
  simp

/-- A byte that stands for a line break comes from a line break only. -/
theorem utf8EncodeChar_newline {c : Char} (h : 10 ∈ String.utf8EncodeChar c) : c = '\n' := by
  unfold String.utf8EncodeChar at h
  simp only at h
  split at h
  · next small =>
    simp only [List.mem_singleton, ← UInt8.toNat_inj] at h
    have code : c.toNat = 10 := by
      have ascii : c.toNat ≤ 127 := small
      simp at h
      omega
    exact Char.ext (UInt32.toNat_inj.1 code)
  -- Every byte of a longer encoding is at least 128.
  · split at h
    · simp [← UInt8.toNat_inj] at h
      omega
    · split at h
      · simp [← UInt8.toNat_inj] at h
        omega
      · simp [← UInt8.toNat_inj] at h
        omega

/-- A text is what its bytes say. -/
theorem fromUTF8_toUTF8 (text : String) : String.fromUTF8? text.toUTF8 = some text := by
  have valid : text.toUTF8.IsValidUTF8 := text.isValidUTF8
  rw [String.fromUTF8?, dif_pos valid]
  rfl

theorem toUTF8_of_fromUTF8 {b : ByteArray} {text : String} (h : String.fromUTF8? b = some text) :
    text.toUTF8 = b := by
  rw [String.fromUTF8?] at h
  split at h
  · cases h
    rfl
  · cases h

/-! ### Frames -/

/-- The sentinel stands here. -/
def Stands (bytes : List UInt8) (i : Nat) : Prop := sentinelBytes <+: bytes.drop i

/-- The first sentinel stands here. -/
def EndsAt (bytes : List UInt8) (k : Nat) : Prop := Stands bytes k ∧ ∀ i < k, ¬ Stands bytes i

/-- No sentinel has come. -/
def Unended (bytes : List UInt8) : Prop := ∀ i, ¬ Stands bytes i

theorem Stands.split {bytes : List UInt8} {k : Nat} (h : Stands bytes k) :
    ∃ behind, bytes = bytes.take k ++ sentinelBytes ++ behind := by
  obtain ⟨behind, rest⟩ := h
  exact ⟨behind, by rw [List.append_assoc, rest, List.take_append_drop]⟩

theorem EndsAt.unique {bytes : List UInt8} {j k : Nat} (hj : EndsAt bytes j) (hk : EndsAt bytes k) :
    j = k := by
  rcases Nat.lt_trichotomy j k with before | same | after
  · exact absurd hj.1 (hk.2 j before)
  · exact same
  · exact absurd hk.1 (hj.2 k after)

theorem Stands.room {bytes : List UInt8} {i : Nat} (h : Stands bytes i) : i + 9 ≤ bytes.length := by
  have := h.length_le
  rw [List.length_drop, sentinelBytes_eq] at this
  simp at this
  omega

theorem Stands.append {bytes : List UInt8} {i : Nat} (h : Stands bytes i) (more : List UInt8) :
    Stands (bytes ++ more) i := by
  have fits := h.room
  rw [Stands, List.drop_append_of_le_length (by omega)]
  exact h.trans (List.prefix_append _ _)

/-- What stands in a longer text and ends before it goes on stands in the shorter one. -/
theorem Stands.of_append {bytes more : List UInt8} {i : Nat} (h : Stands (bytes ++ more) i)
    (inside : i + 9 ≤ bytes.length) : Stands bytes i := by
  rw [Stands, List.drop_append_of_le_length (by omega)] at h
  refine List.prefix_of_prefix_length_le h (List.prefix_append _ more) ?_
  rw [List.length_drop, sentinelBytes_eq]
  simp
  omega

theorem EndsAt.append {bytes : List UInt8} {k : Nat} (h : EndsAt bytes k) (more : List UInt8) :
    EndsAt (bytes ++ more) k := by
  refine ⟨h.1.append more, fun i before stands => h.2 i before (stands.of_append ?_)⟩
  have := h.1.room
  omega

theorem unended_empty : Unended (octets .empty) := by
  intro i h
  have := h.room
  simp at this

/-- Bytes with a sentinel have a first one. -/
theorem unended_or_endsAt (bytes : List UInt8) : Unended bytes ∨ ∃ k, EndsAt bytes k := by
  by_cases h : ∃ i, Stands bytes i
  · obtain ⟨i, stands⟩ := h
    refine .inr ?_
    induction i using Nat.strongRecOn with
    | _ i ih =>
      by_cases earlier : ∃ j < i, Stands bytes j
      · obtain ⟨j, before, stands'⟩ := earlier
        exact ih j before stands'
      · exact ⟨i, stands, fun j before stands' => earlier ⟨j, before, stands'⟩⟩
  · exact .inl fun i stands => h ⟨i, stands⟩

/-- The sentinel begins with a line break, so it cannot begin inside bytes without one. -/
theorem endsAt_of_newline_not_mem {bytes : List UInt8} (h : 10 ∉ bytes) (more : List UInt8) :
    EndsAt (bytes ++ (sentinelBytes ++ more)) bytes.length := by
  constructor
  · rw [Stands, List.drop_left]
    exact List.prefix_append _ _
  · intro i before stands
    rw [Stands, List.drop_append_of_le_length (Nat.le_of_lt before), List.drop_eq_getElem_cons before,
      sentinelBytes_eq, List.cons_append, List.cons_prefix_cons] at stands
    exact h (stands.1 ▸ List.getElem_mem before)

/-! ### The search -/

theorem standsAt_iff {buffer : ByteArray} {i : Nat} {word : List UInt8} :
    standsAt buffer i word = true ↔ word <+: (octets buffer).drop i := by
  induction word generalizing i with
  | nil => simp [standsAt]
  | cons b rest ih =>
    rw [standsAt]
    split
    · next inside =>
      rw [List.drop_eq_getElem_cons (l := octets buffer) inside, List.cons_prefix_cons, Bool.and_eq_true,
        ih, beq_iff_eq]
      constructor
      · rintro ⟨same, tail⟩
        exact ⟨same.symm, tail⟩
      · rintro ⟨same, tail⟩
        exact ⟨same.symm, tail⟩
    · next outside =>
      have empty : (octets buffer).drop i = [] := List.drop_eq_nil_of_le (by simpa using outside)
      simp [empty]

theorem findSentinel_eq_some {buffer : ByteArray} {i left k : Nat}
    (h : findSentinel buffer i left = some k) :
    i ≤ k ∧ Stands (octets buffer) k ∧ ∀ j, i ≤ j → j < k → ¬ Stands (octets buffer) j := by
  induction left generalizing i with
  | zero => simp [findSentinel] at h
  | succ left ih =>
    rw [findSentinel] at h
    split at h
    · next here =>
      cases h
      exact ⟨Nat.le_refl _, standsAt_iff.1 here, fun j after before => by omega⟩
    · next other =>
      obtain ⟨after, stands, first⟩ := ih h
      refine ⟨by omega, stands, fun j from_i before => ?_⟩
      rcases Nat.eq_or_lt_of_le from_i with rfl | later
      · exact fun here => other (standsAt_iff.2 here)
      · exact first j later before

theorem findSentinel_eq_none {buffer : ByteArray} {i left : Nat} (h : findSentinel buffer i left = none) :
    ∀ j, i ≤ j → j < i + left → ¬ Stands (octets buffer) j := by
  induction left generalizing i with
  | zero =>
    intro j after before
    omega
  | succ left ih =>
    rw [findSentinel] at h
    split at h
    · cases h
    · next other =>
      intro j after before
      rcases Nat.eq_or_lt_of_le after with rfl | later
      · exact fun here => other (standsAt_iff.2 here)
      · exact ih h j later (by omega)

/-! ### One read -/

/-- A sentinel that a read completes begins in the last bytes of what came before, or behind them. -/
theorem Unended.new_sentinel {bytes more : List UInt8} {i : Nat} (unended : Unended bytes)
    (h : Stands (bytes ++ more) i) : bytes.length - 8 ≤ i := by
  by_cases inside : i + 9 ≤ bytes.length
  · exact absurd (h.of_append inside) (unended i)
  · omega

theorem size_sentinel : sentinel.size = 9 := by decide

/-- The three outcomes of a read. -/
theorem receive_cases {buffer : ByteArray} (bytes : ByteArray) (unended : Unended (octets buffer)) :
    (∃ k, EndsAt (octets buffer ++ octets bytes) k ∧
        receive buffer bytes = .frame ((buffer ++ bytes).extract 0 k)) ∨
      (Unended (octets buffer ++ octets bytes) ∧ maxFrameSize < (buffer ++ bytes).size ∧
        receive buffer bytes = .failed (.frameTooLarge (buffer ++ bytes).size maxFrameSize)) ∨
      (Unended (octets buffer ++ octets bytes) ∧ (buffer ++ bytes).size ≤ maxFrameSize ∧
        receive buffer bytes = .waiting (buffer ++ bytes)) := by
  have last : sentinel.size - 1 = 8 := by rw [size_sentinel]
  have later {i : Nat} (h : Stands (octets buffer ++ octets bytes) i) : buffer.size - 8 ≤ i :=
    unended.new_sentinel h
  simp only [receive, last]
  cases found : findSentinel (buffer ++ bytes) (buffer.size - 8)
      ((buffer ++ bytes).size - (buffer.size - 8)) with
  | some k =>
    obtain ⟨_, stands, first⟩ := findSentinel_eq_some found
    rw [octets_append] at stands first
    exact .inl ⟨k, ⟨stands, fun i before here => first i (later here) before here⟩, rfl⟩
  | none =>
    have none_stands := findSentinel_eq_none found
    rw [octets_append] at none_stands
    have unended' : Unended (octets buffer ++ octets bytes) := by
      intro i here
      have room := here.room
      rw [← octets_append, length_octets] at room
      exact none_stands i (later here) (by omega) here
    by_cases large : maxFrameSize < (buffer ++ bytes).size
    · exact .inr (.inl ⟨unended', large, by simp only [if_pos large]⟩)
    · exact .inr (.inr ⟨unended', Nat.le_of_not_lt large, by simp only [if_neg large]⟩)

/-- The bytes in front of a sentinel. -/
theorem extract_of_endsAt {buffer bytes : ByteArray} {k : Nat}
    (ends : EndsAt (octets buffer ++ octets bytes) k) :
    octets ((buffer ++ bytes).extract 0 k) = (octets buffer ++ octets bytes).take k ∧
      ((buffer ++ bytes).extract 0 k).size = k := by
  have room := ends.1.room
  have front : octets ((buffer ++ bytes).extract 0 k) = (octets buffer ++ octets bytes).take k := by
    rw [octets_extract, List.drop_zero, Nat.sub_zero, octets_append]
  refine ⟨front, ?_⟩
  rw [← length_octets, front, List.length_take]
  omega

/-! ### All reads of a frame -/

namespace Feed

/-- The bytes of pieces, from `taken` on. -/
def leftOf : List ByteArray → Nat → List UInt8
  | [], _ => []
  | piece :: rest, taken => (octets piece).drop taken ++ rest.flatMap octets

/-- The bytes that have not been read. -/
def left (f : Feed) : List UInt8 := leftOf f.pieces f.taken

theorem left_ofPieces (pieces : List ByteArray) (closes : Bool) :
    (ofPieces pieces closes).left = pieces.flatMap octets := by
  cases pieces <;> simp [left, ofPieces, leftOf]

theorem leftOf_zero (pieces : List ByteArray) : leftOf pieces 0 = pieces.flatMap octets := by
  cases pieces <;> simp [leftOf]

theorem leftOf_readPieces {pieces rest : List ByteArray} {taken next : Nat} {bytes : ByteArray}
    (h : readPieces pieces taken = some (bytes, rest, next)) :
    octets bytes ++ leftOf rest next = leftOf pieces taken := by
  induction pieces generalizing taken with
  | nil => simp [readPieces] at h
  | cons piece others ih =>
    rw [readPieces] at h
    split at h
    · next used =>
      have empty : (octets piece).drop taken = [] := List.drop_eq_nil_of_le (by simpa using used)
      rw [ih h, leftOf_zero, leftOf, empty, List.nil_append]
    · cases h
      rw [octets_extract, leftOf, leftOf, ← List.append_assoc]
      congr 1
      rw [Nat.add_sub_cancel_left, ← List.drop_drop, List.take_append_drop]

theorem leftOf_eq_nil {pieces : List ByteArray} {taken : Nat} (h : readPieces pieces taken = none) :
    leftOf pieces taken = [] := by
  induction pieces generalizing taken with
  | nil => rfl
  | cons piece others ih =>
    rw [readPieces] at h
    split at h
    · next used =>
      have rest := ih h
      rw [leftOf_zero] at rest
      rw [leftOf, rest, List.append_nil]
      exact List.drop_eq_nil_of_le (by simpa using used)
    · cases h

theorem left_of_read? {f g : Feed} {bytes : ByteArray} (h : f.read? = some (bytes, g)) :
    octets bytes ++ g.left = f.left := by
  simp only [read?, Option.map_eq_some_iff] at h
  obtain ⟨⟨b, pieces, taken⟩, found, eq⟩ := h
  cases eq
  exact leftOf_readPieces found

/-- The reads of a feed. -/
def reads (f : Feed) : List ByteArray :=
  match h : f.read? with
  | none => []
  | some (bytes, g) =>
    have := unread_of_read? h
    bytes :: g.reads
  termination_by f.unread

theorem reads_of_read? {f g : Feed} {bytes : ByteArray} (h : f.read? = some (bytes, g)) :
    f.reads = bytes :: g.reads := by
  rw [reads]
  split
  · next found => cases h.symm.trans found
  · next found =>
    cases h.symm.trans found
    rfl

theorem reads_congr {f g : Feed} (same : f.read? = g.read?) : f.reads = g.reads := by
  cases h : g.read? with
  | none =>
    rw [reads, reads]
    split
    · split
      · rfl
      · next found => cases h.symm.trans found
    · next found => cases (same.trans h).symm.trans found
  | some x => rw [reads_of_read? (same.trans h), reads_of_read? h]

/-- A piece that is no larger than a read is read at once. -/
theorem read?_cons {b : ByteArray} {rest : List ByteArray} {closes : Bool} (filled : 0 < b.size)
    (short : b.size ≤ readSize) :
    (ofPieces (b :: rest) closes).read? = some (b, ⟨b :: rest, readSize, closes⟩) := by
  have all : b.extract 0 readSize = b := by
    rw [← octets_inj, octets_extract]
    exact List.take_of_length_le (by simpa using short)
  have unread : ¬ b.size ≤ 0 := by omega
  simp [read?, ofPieces, readPieces, unread, all]

theorem read?_behind {b : ByteArray} {rest : List ByteArray} {closes : Bool} (short : b.size ≤ readSize) :
    (⟨b :: rest, readSize, closes⟩ : Feed).read? = (ofPieces rest closes).read? := by
  simp [read?, ofPieces, readPieces, short]

/-- Every way to cut bytes into reads is a feed. -/
theorem reads_ofPieces {pieces : List ByteArray} {closes : Bool}
    (sizes : ∀ b ∈ pieces, 0 < b.size ∧ b.size ≤ readSize) : (ofPieces pieces closes).reads = pieces := by
  induction pieces with
  | nil =>
    rw [reads]
    split
    · rfl
    · next found => simp [read?, ofPieces, readPieces] at found
  | cons b rest ih =>
    obtain ⟨filled, short⟩ := sizes b List.mem_cons_self
    rw [reads_of_read? (read?_cons filled short), reads_congr (read?_behind short),
      ih fun c mem => sizes c (List.mem_cons_of_mem _ mem)]

theorem left_eq_nil {f : Feed} (h : f.read? = none) : f.left = [] := by
  rw [read?, Option.map_eq_none_iff] at h
  exact leftOf_eq_nil h

end Feed

theorem readFrame_of_none {buffer : ByteArray} {f : Feed} (h : f.read? = none) :
    readFrame buffer f = (.error (noFrame buffer f.closes), f) := by
  rw [readFrame]
  split
  · rfl
  · next found => cases h.symm.trans found

theorem readFrame_of_some {buffer bytes : ByteArray} {f g : Feed} (h : f.read? = some (bytes, g)) :
    readFrame buffer f =
      match receive buffer bytes with
      | .frame document => (.ok document, g)
      | .failed failure => (.error (.failed failure), g)
      | .waiting buffer => readFrame buffer g := by
  rw [readFrame]
  split
  · next found => cases h.symm.trans found
  · next found =>
    cases h.symm.trans found
    rfl

theorem readFrame_congr {f g : Feed} (buffer : ByteArray) (same : f.read? = g.read?)
    (closes : f.closes = g.closes) : (readFrame buffer f).1 = (readFrame buffer g).1 := by
  cases h : g.read? with
  | none => rw [readFrame_of_none (same.trans h), readFrame_of_none h, closes]
  | some x => rw [readFrame_of_some (same.trans h), readFrame_of_some h]

theorem readFrame_of_waiting {f g : Feed} {buffer bytes buffer' : ByteArray}
    (read : f.read? = some (bytes, g)) (h : receive buffer bytes = .waiting buffer') :
    readFrame buffer f = readFrame buffer' g := by
  rw [readFrame_of_some read, h]

/-- The first of several reads, when the sentinel does not come with it. -/
theorem readFrame_cons {buffer buffer' b : ByteArray} {rest : List ByteArray} {closes : Bool}
    (filled : 0 < b.size) (short : b.size ≤ readSize) (h : receive buffer b = .waiting buffer') :
    (readFrame buffer (.ofPieces (b :: rest) closes)).1 = (readFrame buffer' (.ofPieces rest closes)).1 := by
  rw [readFrame_of_waiting (Feed.read?_cons filled short) h]
  exact readFrame_congr buffer' (Feed.read?_behind short) rfl

theorem readFrame_nil {buffer : ByteArray} {closes : Bool} :
    (readFrame buffer (.ofPieces [] closes)).1 = .error (noFrame buffer closes) := by
  have nothing : (Feed.ofPieces [] closes).read? = none := rfl
  rw [readFrame_of_none nothing]
  rfl

theorem readFrame_of_frame {f g : Feed} {buffer bytes document : ByteArray}
    (read : f.read? = some (bytes, g)) (h : receive buffer bytes = .frame document) :
    readFrame buffer f = (.ok document, g) := by
  rw [readFrame_of_some read, h]

theorem readFrame_of_failed {f g : Feed} {buffer bytes : ByteArray} {failure : Failure}
    (read : f.read? = some (bytes, g)) (h : receive buffer bytes = .failed failure) :
    readFrame buffer f = (.error (.failed failure), g) := by
  rw [readFrame_of_some read, h]

/-- A frame that fits is read up to its sentinel. -/
theorem readFrame_of_endsAt {f : Feed} {buffer : ByteArray} {k : Nat} (unended : Unended (octets buffer))
    (ends : EndsAt (octets buffer ++ f.left) k) (fits : k + sentinel.size ≤ maxFrameSize) :
    ∃ document g, readFrame buffer f = (.ok document, g) ∧
      octets document = (octets buffer ++ f.left).take k := by
  induction size : f.unread using Nat.strongRecOn generalizing f buffer with
  | _ n ih =>
    cases read : f.read? with
    | none =>
      rw [Feed.left_eq_nil read, List.append_nil] at ends
      exact absurd ends.1 (unended k)
    | some x =>
      obtain ⟨bytes, g⟩ := x
      have shorter := Feed.unread_of_read? read
      have left := Feed.left_of_read? read
      rw [readFrame_of_some read]
      rw [← left, ← List.append_assoc] at ends ⊢
      rcases receive_cases bytes unended with
        ⟨j, ended, result⟩ | ⟨unended', large, _⟩ | ⟨unended', _, result⟩
      · obtain rfl : j = k := (ended.append g.left).unique ends
        refine ⟨_, g, by rw [result], ?_⟩
        have room := ended.1.room
        rw [(extract_of_endsAt ended).1]
        exact (List.take_append_of_le_length (by omega)).symm
      · have inside : k + 9 ≤ (octets buffer ++ octets bytes).length := by
          rw [← octets_append, length_octets]
          rw [size_sentinel] at fits
          omega
        exact absurd (ends.1.of_append inside) (unended' k)
      · rw [result]
        rw [← octets_append] at ends unended'
        have := ih g.unread (size ▸ shorter) unended' ends rfl
        rwa [octets_append] at this

/-- A frame that was read stood in front of the first sentinel. -/
theorem endsAt_of_readFrame {f g : Feed} {buffer document : ByteArray} (unended : Unended (octets buffer))
    (h : readFrame buffer f = (.ok document, g)) :
    ∃ behind, octets buffer ++ f.left = octets document ++ sentinelBytes ++ behind ∧
      EndsAt (octets buffer ++ f.left) document.size := by
  induction size : f.unread using Nat.strongRecOn generalizing f buffer with
  | _ n ih =>
    cases read : f.read? with
    | none =>
      rw [readFrame_of_none read] at h
      cases h
    | some x =>
      obtain ⟨bytes, g'⟩ := x
      have shorter := Feed.unread_of_read? read
      have left := Feed.left_of_read? read
      rw [readFrame_of_some read] at h
      rw [← left, ← List.append_assoc]
      rcases receive_cases bytes unended with
        ⟨k, ended, result⟩ | ⟨_, _, result⟩ | ⟨unended', _, result⟩
      · rw [result] at h
        cases h
        obtain ⟨front, long⟩ := extract_of_endsAt ended
        obtain ⟨behind, split⟩ := ended.1.split
        refine ⟨behind ++ g.left, ?_, ?_⟩
        · rw [front, ← List.append_assoc, ← split]
        · rw [long]
          exact ended.append g.left
      · rw [result] at h
        cases h
      · rw [result] at h
        rw [← octets_append] at unended' ⊢
        exact ih g'.unread (size ▸ shorter) unended' h rfl

/-! ### Whole streams -/

/-- The first place where the sentinel stands. -/
def firstSentinel? (bytes : List UInt8) : Option Nat := bytes.tails.findIdx? fun rest => sentinelBytes.isPrefixOf rest

/-- What is read of bytes after which the peer closes. -/
def frameOf (b : ByteArray) : Except NoFrame ByteArray :=
  match firstSentinel? (octets b) with
  | some k => .ok (b.extract 0 k)
  | none =>
    .error (if b.size = 0 then .closed
      else .failed (.protocol ("incomplete frame: connection closed after " ++ toString b.size
        ++ " bytes without end marker")))

section

variable {bytes : List UInt8}

theorem stands_iff_tails {i : Nat} (inside : i < bytes.tails.length) :
    Stands bytes i ↔ sentinelBytes.isPrefixOf bytes.tails[i] = true := by
  rw [List.getElem_tails, List.isPrefixOf_iff_prefix, Stands]

theorem firstSentinel?_of_endsAt {k : Nat} (ends : EndsAt bytes k) : firstSentinel? bytes = some k := by
  have room := ends.1.room
  have inside : k < bytes.tails.length := by
    rw [List.length_tails]
    omega
  refine List.findIdx?_eq_some_iff_getElem.mpr ⟨inside, (stands_iff_tails inside).mp ends.1, ?_⟩
  intro i before stands
  exact ends.2 i before ((stands_iff_tails (Nat.lt_trans before inside)).mpr stands)

theorem firstSentinel?_of_unended (unended : Unended bytes) : firstSentinel? bytes = none := by
  refine List.findIdx?_eq_none_iff.mpr fun rest mem => ?_
  obtain ⟨i, inside, rfl⟩ := List.mem_iff_getElem.mp mem
  exact Bool.eq_false_iff.mpr fun stands => unended i ((stands_iff_tails inside).mpr stands)

theorem Unended.of_append {more : List UInt8} (unended : Unended (bytes ++ more)) : Unended bytes :=
  fun i stands => unended i (stands.append more)

end

theorem Feed.closes_of_read? {f g : Feed} {bytes : ByteArray} (read : f.read? = some (bytes, g)) :
    g.closes = f.closes := by
  simp only [Feed.read?, Option.map_eq_some_iff] at read
  obtain ⟨_, -, same⟩ := read
  cases same
  rfl

/-- Without a sentinel a reader takes everything in and then finds that nothing more comes. -/
theorem readFrame_of_unended {f : Feed} {buffer whole : ByteArray} (all : octets whole = octets buffer ++ f.left)
    (unended : Unended (octets whole)) (fits : whole.size ≤ maxFrameSize) :
    (readFrame buffer f).1 = .error (noFrame whole f.closes) := by
  induction size : f.unread using Nat.strongRecOn generalizing f buffer with
  | _ n ih =>
    cases read : f.read? with
    | none =>
      rw [Feed.left_eq_nil read, List.append_nil, octets_inj] at all
      rw [readFrame_of_none read, all]
    | some x =>
      obtain ⟨bytes, g⟩ := x
      have shorter := Feed.unread_of_read? read
      rw [← Feed.left_of_read? read, ← List.append_assoc] at all
      have read_so_far : Unended (octets buffer ++ octets bytes) := by
        rw [all] at unended
        exact unended.of_append
      have length := congrArg List.length all
      rw [← octets_append, List.length_append, length_octets, length_octets] at length
      rcases receive_cases bytes read_so_far.of_append with ⟨k, ended, -⟩ | ⟨-, large, -⟩ | ⟨-, -, waiting⟩
      · exact absurd ended.1 (read_so_far k)
      · omega
      · rw [readFrame_of_waiting read waiting, ← Feed.closes_of_read? read]
        rw [← octets_append] at all
        exact ih g.unread (size ▸ shorter) all rfl

/-- Whatever the reads of bytes are that fit, the reader gives what is in front of the first sentinel; without one it
gives nothing for no bytes, and otherwise the failure that says how many came. -/
theorem readFrame_closed (b : ByteArray) (reads : List ByteArray)
    (sizes : ∀ bytes ∈ reads, 0 < bytes.size ∧ bytes.size ≤ readSize) (sent : reads.flatMap octets = octets b)
    (fits : b.size ≤ maxFrameSize) :
    (Feed.ofPieces reads true).reads = reads ∧ (readFrame .empty (.ofPieces reads true)).1 = frameOf b := by
  refine ⟨Feed.reads_ofPieces sizes, ?_⟩
  have all : octets b = octets .empty ++ (Feed.ofPieces reads true).left := by
    rw [octets_empty, List.nil_append, Feed.left_ofPieces, sent]
  unfold frameOf
  rcases unended_or_endsAt (octets b) with unended | ⟨k, ends⟩
  · rw [firstSentinel?_of_unended unended, readFrame_of_unended all unended fits]
    rfl
  · have room := ends.1.room
    rw [length_octets] at room
    have small : k + sentinel.size ≤ maxFrameSize := by
      rw [size_sentinel]
      omega
    obtain ⟨document, g, read, front⟩ := readFrame_of_endsAt unended_empty (all ▸ ends) small
    have same : document = b.extract 0 k := by
      rw [← octets_inj, front, ← all, octets_extract, List.drop_zero, Nat.sub_zero]
    rw [firstSentinel?_of_endsAt ends, read, same]

/-- The second read begins inside the sentinel, behind which more comes; and the same bytes without their last six
are no frame. -/
theorem readFrame_closed_of_cut :
    (readFrame .empty (.ofPieces ["a\n__\n__EN".toUTF8, "D__\nb".toUTF8] true)).1 = .ok "a\n__".toUTF8 ∧
    (readFrame .empty (.ofPieces ["a\n__\n__EN".toUTF8] true)).1 =
      .error (.failed (.protocol "incomplete frame: connection closed after 9 bytes without end marker")) := by
  have whole := readFrame_closed "a\n__\n__END__\nb".toUTF8 ["a\n__\n__EN".toUTF8, "D__\nb".toUTF8] (by decide)
    (by decide) (by decide)
  have part := readFrame_closed "a\n__\n__EN".toUTF8 ["a\n__\n__EN".toUTF8] (by decide) (by decide) (by decide)
  have found : frameOf "a\n__\n__END__\nb".toUTF8 = .ok "a\n__".toUTF8 := by
    have stands : firstSentinel? (octets "a\n__\n__END__\nb".toUTF8) = some 4 := by decide
    rw [frameOf, stands]
    rfl
  have missing : frameOf "a\n__\n__EN".toUTF8 =
      .error (.failed (.protocol "incomplete frame: connection closed after 9 bytes without end marker")) := by
    have none_stands : firstSentinel? (octets "a\n__\n__EN".toUTF8) = none := by decide
    rw [frameOf, none_stands]
    rfl
  exact ⟨whole.2.trans found, part.2.trans missing⟩

end SnippetKernel.Wire
