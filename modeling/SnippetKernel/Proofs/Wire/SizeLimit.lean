import SnippetKernel.Proofs.Wire.Framing

/-! Which requests are too large. The reader compares what it has with the limit only after reads that do not bring
the whole sentinel, and what it has may then end with a part of the sentinel. So whether a document near the limit is
refused depends on where the reads end; away from the limit it depends on the size of the document alone. -/
namespace SnippetKernel.Wire

/-- The bytes can come in these reads. -/
def ComesIn (bytes : List UInt8) (reads : List ByteArray) : Prop :=
  (∀ b ∈ reads, 0 < b.size ∧ b.size ≤ readSize) ∧ reads.flatMap octets = bytes

/-- What comes in these reads is refused for its size. -/
def Refused (reads : List ByteArray) (closes : Bool) : Prop :=
  ∃ n, (readFrame .empty (.ofPieces reads closes)).1 = .error (.failed (.frameTooLarge n maxFrameSize))

/-- Some of the reads, behind `before` bytes, bring more than the limit, but not yet a sentinel at `k`. -/
def Outgrown (before : Nat) (reads : List ByteArray) (k : Nat) : Prop :=
  ∃ front, front <+: reads ∧ maxFrameSize < before + Feed.total front ∧
    before + Feed.total front < k + sentinel.size

section

variable {reads : List ByteArray} {buffer b : ByteArray} {k : Nat} {closes : Bool}

theorem Feed.length_flatMap_octets (pieces : List ByteArray) : (pieces.flatMap octets).length = total pieces := by
  induction pieces with
  | nil => rfl
  | cons piece rest ih => rw [List.flatMap_cons, List.length_append, length_octets, ih, total]

theorem Feed.total_append (front rest : List ByteArray) : total (front ++ rest) = total front + total rest := by
  rw [← length_flatMap_octets, List.flatMap_append, List.length_append, length_flatMap_octets, length_flatMap_octets]

theorem EndsAt.length {bytes : List UInt8} (ends : EndsAt bytes k) : k + sentinel.size ≤ bytes.length := by
  rw [size_sentinel]
  exact ends.1.room

theorem EndsAt.unended {bytes more : List UInt8} (ends : EndsAt (bytes ++ more) k) (unended : Unended bytes) :
    bytes.length < k + sentinel.size := by
  rw [size_sentinel]
  refine Nat.lt_of_not_le fun inside => unended k (ends.1.of_append inside)

/-! ### One read -/

/-- The read that brings the sentinel ends the reading. -/
theorem not_outgrown_of_endsAt {rest : List ByteArray} (fits : buffer.size ≤ maxFrameSize)
    (ended : EndsAt (octets buffer ++ octets b) k) : ¬ Outgrown buffer.size (b :: rest) k := by
  rintro ⟨front, part, large, unfinished⟩
  have whole := ended.length
  rw [List.length_append, length_octets, length_octets] at whole
  rcases List.prefix_cons_iff.mp part with rfl | ⟨others, rfl, -⟩
  · simp only [Feed.total] at large
    omega
  · simp only [Feed.total] at unfinished
    omega

theorem outgrown_cons_iff {rest : List ByteArray} (fits : (buffer ++ b).size ≤ maxFrameSize) :
    Outgrown buffer.size (b :: rest) k ↔ Outgrown (buffer ++ b).size rest k := by
  have grown : (buffer ++ b).size = buffer.size + b.size := ByteArray.size_append
  constructor
  · rintro ⟨front, part, large, unfinished⟩
    rcases List.prefix_cons_iff.mp part with rfl | ⟨others, rfl, inside⟩
    · simp only [Feed.total] at large
      omega
    · simp only [Feed.total] at large unfinished
      exact ⟨others, inside, by omega, by omega⟩
  · rintro ⟨others, inside, large, unfinished⟩
    refine ⟨b :: others, List.cons_prefix_cons.mpr ⟨rfl, inside⟩, ?_, ?_⟩
    · simp only [Feed.total]
      omega
    · simp only [Feed.total]
      omega

/-! ### All reads -/

/-- The reader ends with a refusal if the reads outgrow the limit, and otherwise with the document. -/
theorem readFrame_of_reads (closes : Bool) (sizes : ∀ bytes ∈ reads, 0 < bytes.size ∧ bytes.size ≤ readSize)
    (unended : Unended (octets buffer)) (fits : buffer.size ≤ maxFrameSize)
    (ends : EndsAt (octets buffer ++ reads.flatMap octets) k) :
    (Outgrown buffer.size reads k ∧
        ∃ n, (readFrame buffer (.ofPieces reads closes)).1 = .error (.failed (.frameTooLarge n maxFrameSize))) ∨
      (¬ Outgrown buffer.size reads k ∧
        ∃ document, (readFrame buffer (.ofPieces reads closes)).1 = .ok document ∧
          octets document = (octets buffer ++ reads.flatMap octets).take k) := by
  induction reads generalizing buffer with
  | nil =>
    rw [List.flatMap_nil, List.append_nil] at ends
    exact absurd ends.1 (unended k)
  | cons b rest ih =>
    obtain ⟨filled, short⟩ := sizes b List.mem_cons_self
    rw [List.flatMap_cons, ← List.append_assoc] at ends ⊢
    have read : (Feed.ofPieces (b :: rest) closes).read? = some (b, ⟨b :: rest, readSize, closes⟩) :=
      Feed.read?_cons filled short
    -- The read brings the sentinel, goes beyond the limit without it, or leaves the reader waiting.
    rcases receive_cases b unended with
      ⟨j, ended, framed⟩ | ⟨unended', large, failed⟩ | ⟨unended', small, waiting⟩
    · obtain rfl : j = k := (ended.append _).unique ends
      refine .inr ⟨not_outgrown_of_endsAt fits ended, _, by rw [readFrame_of_frame read framed], ?_⟩
      have room := ended.1.room
      rw [(extract_of_endsAt ended).1]
      exact (List.take_append_of_le_length (by omega)).symm
    · have unfinished := ends.unended unended'
      rw [List.length_append, length_octets, length_octets] at unfinished
      have grown : (buffer ++ b).size = buffer.size + b.size := ByteArray.size_append
      refine .inl ⟨⟨[b], ⟨rest, rfl⟩, ?_, ?_⟩, _, by rw [readFrame_of_failed read failed]⟩
      · simp only [Feed.total]
        omega
      · simp only [Feed.total]
        omega
    · rw [← octets_append] at unended' ends
      rw [outgrown_cons_iff small, readFrame_cons filled short waiting, ← octets_append]
      exact ih (fun bytes mem => sizes bytes (List.mem_cons_of_mem _ mem)) unended' small ends

theorem refused_iff {bytes : List UInt8} (comes : ComesIn bytes reads) (ends : EndsAt bytes k) :
    Refused reads closes ↔ Outgrown 0 reads k := by
  obtain ⟨sizes, rfl⟩ := comes
  rcases readFrame_of_reads closes sizes unended_empty (Nat.zero_le _) ends with
    ⟨outgrown, refused⟩ | ⟨fits, document, read, -⟩
  · exact ⟨fun _ => outgrown, fun _ => refused⟩
  · refine ⟨fun ⟨n, refused⟩ => ?_, fun outgrown => absurd outgrown fits⟩
    rw [read] at refused
    cases refused

/-! ### Documents away from the limit -/

/-- All of the sentinel but one byte fits. -/
theorem not_outgrown_of_small (small : k + sentinel.size ≤ maxFrameSize + 1) : ¬ Outgrown 0 reads k := by
  rintro ⟨front, -, large, unfinished⟩
  omega

/-- The last of the reads that leave something out leave out no more than a read takes. -/
theorem exists_front_of_le (sizes : ∀ bytes ∈ reads, bytes.size ≤ readSize) (whole : Nat)
    (positive : 0 < whole) (ends : whole ≤ Feed.total reads) :
    ∃ front, front <+: reads ∧ Feed.total front < whole ∧ whole ≤ Feed.total front + readSize := by
  induction reads generalizing whole with
  | nil =>
    simp only [Feed.total] at ends
    omega
  | cons b rest ih =>
    have short := sizes b List.mem_cons_self
    simp only [Feed.total] at ends
    by_cases last : whole ≤ b.size
    · refine ⟨[], List.nil_prefix, ?_, ?_⟩
      · simpa only [Feed.total] using positive
      · simp only [Feed.total]
        omega
    · obtain ⟨front, part, unfinished, near⟩ :=
        ih (fun bytes mem => sizes bytes (List.mem_cons_of_mem _ mem)) (whole - b.size) (by omega) (by omega)
      refine ⟨b :: front, List.cons_prefix_cons.mpr ⟨rfl, part⟩, ?_, ?_⟩
      · simp only [Feed.total]
        omega
      · simp only [Feed.total]
        omega

theorem outgrown_of_large {bytes : List UInt8} (comes : ComesIn bytes reads) (ends : EndsAt bytes k)
    (large : maxFrameSize + readSize < k + sentinel.size) : Outgrown 0 reads k := by
  have whole := ends.length
  rw [← comes.2, Feed.length_flatMap_octets] at whole
  obtain ⟨front, part, unfinished, near⟩ :=
    exists_front_of_le (fun b mem => (comes.1 b mem).2) _ (by omega) whole
  exact ⟨front, part, by omega, by omega⟩

end

/-! ### Documents near the limit -/

/-- Bytes that come one by one. -/
def singleReads (bytes : List UInt8) : List ByteArray := bytes.map fun b => [b].toByteArray

/-- Bytes that come in reads that are as large as they can be. -/
def fullReads (bytes : List UInt8) : List ByteArray :=
  if bytes = [] then [] else (bytes.take readSize).toByteArray :: fullReads (bytes.drop readSize)
  termination_by bytes.length
  decreasing_by
    rw [List.length_drop]
    have := List.length_pos_iff.mpr ‹bytes ≠ []›
    simp only [readSize]
    omega

theorem size_toByteArray (bytes : List UInt8) : bytes.toByteArray.size = bytes.length := by
  rw [← length_octets, octets_toByteArray]

theorem octets_singleReads (bytes : List UInt8) : (singleReads bytes).flatMap octets = bytes := by
  induction bytes with
  | nil => rfl
  | cons byte rest ih =>
    rw [singleReads, List.map_cons, List.flatMap_cons, octets_toByteArray, ← singleReads, ih]
    rfl

theorem comesIn_singleReads (bytes : List UInt8) : ComesIn bytes (singleReads bytes) := by
  refine ⟨fun b mem => ?_, octets_singleReads bytes⟩
  obtain ⟨byte, -, rfl⟩ := List.mem_map.mp mem
  rw [size_toByteArray, List.length_singleton]
  decide

theorem outgrown_singleReads {bytes : List UInt8} {k : Nat} (ends : EndsAt bytes k)
    (large : maxFrameSize + 1 < k + sentinel.size) : Outgrown 0 (singleReads bytes) k := by
  have whole := ends.length
  have total : Feed.total (singleReads (bytes.take (maxFrameSize + 1))) = maxFrameSize + 1 := by
    rw [← Feed.length_flatMap_octets, octets_singleReads, List.length_take]
    omega
  refine ⟨singleReads (bytes.take (maxFrameSize + 1)), ?_, by omega, by omega⟩
  exact (List.take_prefix _ bytes).map _

theorem comesIn_fullReads (bytes : List UInt8) : ComesIn bytes (fullReads bytes) := by
  fun_induction fullReads bytes with
  | case1 => exact ⟨by simp, rfl⟩
  | case2 bytes some_left ih =>
    have filled := List.length_pos_iff.mpr some_left
    refine ⟨List.forall_mem_cons.mpr ⟨?_, ih.1⟩, ?_⟩
    · rw [size_toByteArray, List.length_take]
      simp only [readSize]
      omega
    · rw [List.flatMap_cons, octets_toByteArray, ih.2, List.take_append_drop]

/-- Full reads end at multiples of their size, or with the bytes. -/
theorem total_of_fullReads {bytes : List UInt8} {front : List ByteArray} (part : front <+: fullReads bytes) :
    readSize ∣ Feed.total front ∨ Feed.total front = bytes.length := by
  induction front generalizing bytes with
  | nil => exact .inl (Nat.dvd_zero _)
  | cons b others ih =>
    rw [fullReads] at part
    split at part
    · exact absurd part (by simp)
    · obtain ⟨rfl, inside⟩ := List.cons_prefix_cons.mp part
      have rest := ih inside
      rw [Feed.total, size_toByteArray, List.length_take]
      rw [List.length_drop] at rest
      by_cases short : bytes.length ≤ readSize
      · rw [List.drop_eq_nil_of_le short, fullReads, if_pos rfl, List.prefix_nil] at inside
        subst inside
        simp only [Feed.total]
        omega
      · rw [Nat.min_eq_left (by omega)]
        rcases rest with multiple | all
        · exact .inl (Nat.dvd_add (Nat.dvd_refl _) multiple)
        · exact .inr (by omega)

theorem not_outgrown_fullReads {bytes : List UInt8} {k : Nat} (ends : EndsAt bytes k)
    (small : k + sentinel.size ≤ maxFrameSize + readSize) : ¬ Outgrown 0 (fullReads bytes) k := by
  rintro ⟨front, part, large, unfinished⟩
  have whole := ends.length
  -- The limit is itself a multiple of the size of a read, so full reads go beyond it by a whole one.
  rcases total_of_fullReads part with ⟨n, multiple⟩ | all
  · simp only [maxFrameSize, readSize] at multiple large small
    omega
  · omega

/-- A document of `k` bytes is refused exactly if some of the reads bring more than the limit, but not yet the whole
sentinel, and otherwise it comes out. Its size alone decides if all of the sentinel but one byte fits behind it, and if
it goes so far beyond the limit that no single read can bring the rest. In between the reads decide: it is refused when
its bytes come one by one, and taken when the reads are full. -/
theorem readFrame_limit {bytes : List UInt8} {k : Nat} (ends : EndsAt bytes k) (closes : Bool) :
    (∀ reads, ComesIn bytes reads →
      (Feed.ofPieces reads closes).reads = reads ∧
      (Refused reads closes ↔ ∃ front, front <+: reads ∧ maxFrameSize < Feed.total front ∧
        Feed.total front < k + sentinel.size) ∧
      (¬ Refused reads closes → ∃ document, (readFrame .empty (.ofPieces reads closes)).1 = .ok document ∧
        octets document = bytes.take k) ∧
      (k + sentinel.size ≤ maxFrameSize + 1 ∨ maxFrameSize + readSize < k + sentinel.size →
        (Refused reads closes ↔ maxFrameSize < k))) ∧
    (maxFrameSize + 1 < k + sentinel.size ∧ k + sentinel.size ≤ maxFrameSize + readSize →
      (ComesIn bytes (singleReads bytes) ∧ Refused (singleReads bytes) closes) ∧
      ComesIn bytes (fullReads bytes) ∧ ¬ Refused (fullReads bytes) closes) := by
  have single := comesIn_singleReads bytes
  have full := comesIn_fullReads bytes
  refine ⟨fun reads comes => ⟨Feed.reads_ofPieces comes.1, ?_, ?_, ?_⟩,
    fun ⟨large, small⟩ => ⟨⟨single, ?_⟩, full, ?_⟩⟩
  · rw [refused_iff comes ends, Outgrown]
    simp only [Nat.zero_add]
  · intro taken
    have behind : EndsAt (octets .empty ++ reads.flatMap octets) k := by
      rw [octets_empty, List.nil_append, comes.2]
      exact ends
    rcases readFrame_of_reads closes comes.1 unended_empty (Nat.zero_le _) behind with
      ⟨-, refused⟩ | ⟨-, document, read, front⟩
    · exact absurd refused taken
    · rw [octets_empty, List.nil_append, comes.2] at front
      exact ⟨document, read, front⟩
  · rw [refused_iff comes ends]
    have length := size_sentinel
    have short : sentinel.size ≤ readSize := by decide
    rintro (small | large)
    · exact iff_of_false (not_outgrown_of_small small) (by omega)
    · exact iff_of_true (outgrown_of_large comes ends large) (by omega)
  · exact (refused_iff single ends).mpr (outgrown_singleReads ends large)
  · exact fun refused => not_outgrown_fullReads ends small ((refused_iff full ends).mp refused)

def letters (n : Nat) : List UInt8 := List.replicate n 97 ++ sentinelBytes

theorem endsAt_letters (n : Nat) : EndsAt (letters n) n := by
  have one_line : 10 ∉ List.replicate n (97 : UInt8) := by
    intro inside
    exact absurd (List.eq_of_mem_replicate inside) (by decide)
  simpa [letters] using endsAt_of_newline_not_mem one_line []

/-- A document that is as large as the limit is refused or taken as the reads fall. -/
theorem readFrame_limit_of_letters :
    EndsAt (letters maxFrameSize) maxFrameSize ∧
    (∃ reads, ComesIn (letters maxFrameSize) reads ∧ Refused reads true) ∧
    ∃ reads, ComesIn (letters maxFrameSize) reads ∧ ¬ Refused reads true := by
  have near : maxFrameSize + 1 < maxFrameSize + sentinel.size ∧
      maxFrameSize + sentinel.size ≤ maxFrameSize + readSize := by
    rw [size_sentinel, readSize]
    omega
  obtain ⟨refused, taken⟩ := (readFrame_limit (endsAt_letters maxFrameSize) true).2 near
  exact ⟨endsAt_letters maxFrameSize, ⟨_, refused⟩, ⟨_, taken⟩⟩

theorem ComesIn.append {bytes more : List UInt8} {reads others : List ByteArray} (first : ComesIn bytes reads)
    (second : ComesIn more others) : ComesIn (bytes ++ more) (reads ++ others) := by
  refine ⟨List.forall_mem_append.mpr ⟨first.1, second.1⟩, ?_⟩
  rw [List.flatMap_append, first.2, second.2]

/-- A document that is no larger than the limit is refused when its sentinel comes in two reads, and one that is
larger is taken. -/
theorem limit_missed :
    (EndsAt (letters maxFrameSize) maxFrameSize ∧
      let reads := fullReads (List.replicate maxFrameSize 97) ++ ["\n".toUTF8, "__END__\n".toUTF8]
      ComesIn (letters maxFrameSize) reads ∧ Refused reads true) ∧
    EndsAt (letters (maxFrameSize + 1)) (maxFrameSize + 1) ∧
      ComesIn (letters (maxFrameSize + 1)) (fullReads (letters (maxFrameSize + 1))) ∧
      ¬ Refused (fullReads (letters (maxFrameSize + 1))) true := by
  have marker : ComesIn sentinelBytes ["\n".toUTF8, "__END__\n".toUTF8] := ⟨by decide, by decide⟩
  have comes := (comesIn_fullReads (List.replicate maxFrameSize 97)).append marker
  have whole := comesIn_fullReads (letters (maxFrameSize + 1))
  have longer := endsAt_letters (maxFrameSize + 1)
  have length := size_sentinel
  refine ⟨⟨endsAt_letters maxFrameSize, comes, ?_⟩, longer, whole, fun refused => ?_⟩
  · refine (refused_iff comes (endsAt_letters maxFrameSize)).mpr
      ⟨fullReads (List.replicate maxFrameSize 97) ++ ["\n".toUTF8], ?_, ?_⟩
    · exact (List.prefix_append_right_inj _).mpr ⟨["__END__\n".toUTF8], rfl⟩
    · have line_end : Feed.total ["\n".toUTF8] = 1 := by decide
      rw [Feed.total_append, line_end, ← Feed.length_flatMap_octets, (comesIn_fullReads _).2,
        List.length_replicate]
      omega
  · have outgrown := (refused_iff whole longer).mp refused
    have short : 1 + sentinel.size ≤ readSize := by decide
    exact not_outgrown_fullReads longer (by omega) outgrown

end SnippetKernel.Wire
