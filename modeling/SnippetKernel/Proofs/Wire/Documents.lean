import SnippetKernel.Proofs.Wire.Extension
import SnippetKernel.Proofs.Wire.Framing
import SnippetKernel.Proofs.Wire.ReadBack

/-! A document means the request or the response that it was written for. The frame of a request brings it across
however the bytes are cut, and nothing of a response that is cut off earlier means a response at all. -/
namespace SnippetKernel.Request

open Wire

variable {s : String}

theorem optionalText_of_ahead {expected text : String} {p : s.Pos} {rest : List Char}
    (h : ahead p = (Json.string text).text.toList ++ rest) :
    Gives (optionalText expected p) (some text) rest := by
  have read : Gives (Wire.text expected p) text rest := text_of_ahead h
  rw [toList_text_string] at h
  obtain ⟨q, found, _⟩ := nextVisible_of_ahead h (by decide)
  simp only [optionalText, found]
  exact read.map some

theorem memberText_of_ahead {text : String} {p : s.Pos} {rest : List Char}
    (h : ahead p = ':' :: ((Json.string text).text.toList ++ rest)) :
    Gives (Fields.memberText p) (some text) rest :=
  afterColon_of_ahead h fun _ left => optionalText_of_ahead left

/-- The fields of the document of a request. -/
def fields (r : Request) : Fields :=
  match r with
  | execute code => ⟨some (some "execute"), some (some code), none⟩
  | inspect pattern => ⟨some (some "inspect"), none, some (some pattern)⟩
  | reset => ⟨some (some "reset"), none, none⟩
  | status => ⟨some (some "status"), none, none⟩

theorem request_fields (r : Request) : r.fields.request = .ok r := by
  cases r <;> rfl

/-- Reading a document reads the members of its object. -/
theorem read_of_members {p : s.Pos} {f : Fields} {r : Request} {cs rest : List Char}
    (h : ahead p = '\x7b' :: cs) (meant : f.request = .ok r)
    (reads : ∀ q : s.Pos, ahead q = cs →
      Gives (members Fields.member true .empty (.here q)) f rest) : Gives (read p) r rest := by
  obtain ⟨q, found, left⟩ := nextVisible_of_ahead h (by decide)
  obtain ⟨t, fields, left'⟩ := (reads q.1 left).behind.afterSpace
  refine ⟨t, ?_, left'⟩
  unfold read
  simp only [found, fields, meant]

theorem action_of_ahead {text : String} {p : s.Pos} {rest : List Char}
    (h : ahead p = ':' :: ((Json.string text).text.toList ++ rest)) :
    Gives (Fields.member "action" .empty p) ⟨some (some text), none, none⟩ rest :=
  (memberText_of_ahead h).map fun v => (⟨some v, none, none⟩ : Fields)

theorem code_of_ahead {f : Fields} {text : String} {p : s.Pos} {rest : List Char} (fresh : f.code = none)
    (h : ahead p = ':' :: ((Json.string text).text.toList ++ rest)) :
    Gives (Fields.member "code" f p) { f with code := some (some text) } rest := by
  have read := (memberText_of_ahead h).map fun v => { f with code := some v }
  simpa [Fields.member, fresh] using read

theorem pattern_of_ahead {f : Fields} {text : String} {p : s.Pos} {rest : List Char}
    (fresh : f.pattern = none) (h : ahead p = ':' :: ((Json.string text).text.toList ++ rest)) :
    Gives (Fields.member "pattern" f p) { f with pattern := some (some text) } rest := by
  have read := (memberText_of_ahead h).map fun v => { f with pattern := some v }
  simpa [Fields.member, fresh] using read

/-- The document of a request is read back from in front of anything. -/
theorem read_of_text (r : Request) {p : s.Pos} {rest : List Char} (h : ahead p = r.text.toList ++ rest) :
    Gives (read p) r rest := by
  simp only [text, toJson, toList_text_object, List.cons_append] at h
  refine read_of_members h r.request_fields fun q left => ?_
  refine members_cons_of_ahead left (fun _ => action_of_ahead) fun q left => ?_
  cases r with
  | execute code =>
    exact members_cons_of_ahead left (fun _ => code_of_ahead rfl) fun _ => members_nil_of_ahead
  | inspect pattern =>
    exact members_cons_of_ahead left (fun _ => pattern_of_ahead rfl) fun _ => members_nil_of_ahead
  | reset => exact members_nil_of_ahead left
  | status => exact members_nil_of_ahead left

theorem ofText_text (r : Request) : ofText r.text = .ok r :=
  whole_of_gives (read_of_text r (by rw [ahead_startPos, List.append_nil]))

/-! ### Frames -/

theorem plain_toJson (r : Request) : Plain 1 r.toJson := by
  refine .object fun m inside => ?_
  rcases List.mem_cons.1 inside with rfl | inside
  · exact .string _
  · cases r <;> simp at inside
    all_goals
      subst inside
      exact .string _

theorem newline_not_mem_bytes (r : Request) : 10 ∉ octets r.text.toUTF8 := by
  rw [octets_toUTF8]
  intro inside
  obtain ⟨c, mem, byte⟩ := List.mem_flatMap.1 inside
  rw [utf8EncodeChar_newline byte] at mem
  exact r.plain_toJson.newline_not_mem mem

theorem octets_frame (r : Request) : octets (frame r) = octets r.text.toUTF8 ++ sentinelBytes := by
  rw [frame, octets_append, octets_sentinel]

theorem ofFrame_bytes (r : Request) : ofFrame r.text.toUTF8 = .ok r := by
  rw [ofFrame, fromUTF8_toUTF8]
  simp only [ofText_text]

/-- The frame of a request that fits comes out of any reads whole, whatever is sent behind it, and means
the request. -/
theorem readFrame_frame (r : Request) (pieces : List ByteArray) (closes : Bool) (behind : List UInt8)
    (sent : pieces.flatMap octets = octets (frame r) ++ behind)
    (fits : r.text.toUTF8.size + sentinel.size ≤ maxFrameSize) :
    10 ∉ octets r.text.toUTF8 ∧ EndsAt (octets (frame r)) r.text.toUTF8.size ∧
      (readFrame .empty (.ofPieces pieces closes)).1 = .ok r.text.toUTF8 ∧
      ofFrame r.text.toUTF8 = .ok r := by
  have one_line := r.newline_not_mem_bytes
  have ends : EndsAt (octets (frame r)) r.text.toUTF8.size := by
    have := endsAt_of_newline_not_mem one_line []
    rwa [List.append_nil, ← octets_frame, length_octets] at this
  refine ⟨one_line, ends, ?_, r.ofFrame_bytes⟩
  have left : octets .empty ++ (Feed.ofPieces pieces closes).left = octets (frame r) ++ behind := by
    rw [octets_empty, List.nil_append, Feed.left_ofPieces, sent]
  obtain ⟨document, g, read, front⟩ :=
    readFrame_of_endsAt unended_empty (left ▸ ends.append behind) fits
  have same : octets document = octets r.text.toUTF8 := by
    rw [front, left, octets_frame, List.append_assoc, ← length_octets, List.take_left]
  rw [read, octets_inj.1 same]

/-- Code that contains the sentinel itself, in two reads that cut its document. -/
theorem readFrame_frame_of_sentinel :
    let r := execute "\n__END__\n"
    10 ∉ octets r.text.toUTF8 ∧ EndsAt (octets (frame r)) r.text.toUTF8.size ∧
      (readFrame .empty (.ofPieces [(frame r).extract 0 30, (frame r).extract 30 (frame r).size] false)).1
        = .ok r.text.toUTF8 ∧
      ofFrame r.text.toUTF8 = .ok r := by
  intro r
  have document : r.text.toList
      = "\x7b\"action\":\"execute\",\"code\":\"\\n__END__\\n\"\x7d".toList := by
    simp only [r, text, toJson, toList_text_object, memberChars, toList_quote, toList_text_string, quoted]
    decide
  have sent : [(frame r).extract 0 30, (frame r).extract 30 (frame r).size].flatMap octets
      = octets (frame r) ++ [] := by
    have rest : ((octets (frame r)).drop 30).take ((frame r).size - 30) = (octets (frame r)).drop 30 :=
      List.take_of_length_le (by simp)
    simp [octets_extract, rest]
  have fits : r.text.toUTF8.size + sentinel.size ≤ maxFrameSize := by
    rw [String.toList_inj.1 document]
    decide
  exact readFrame_frame r _ false [] sent fits

end SnippetKernel.Request

/-! ### Responses -/
namespace SnippetKernel.Response

open Wire

/-! ### Fields -/

theorem ofJson_toJson (v : VariableInfo) : VariableInfo.ofJson v.toJson = .ok v := rfl

theorem variables_read (vs : List VariableInfo) :
    InspectResult.variables? (.array (vs.map VariableInfo.toJson)) = .ok vs := by
  rw [InspectResult.variables?, FieldReader.list]
  induction vs with
  | nil => rfl
  | cons v vs ih =>
    rw [List.map_cons, List.mapM_cons, ih, ofJson_toJson]
    rfl

theorem inspect_read (r : InspectResult) : InspectResult.ofJson (.object r.members) = .ok r := by
  have read := variables_read r.bindings
  have checked : InspectResult.variables?.check (.array (r.bindings.map VariableInfo.toJson)) = .ok () := by
    rw [FieldReader.check, read]
    rfl
  have shaped : InspectResult.shape.members (.object r.members) = .ok r.members := by
    change ((InspectResult.variables?.check (.array (r.bindings.map VariableInfo.toJson)) >>= fun _ =>
      .ok ()) >>= fun _ => .ok r.members) = _
    rw [checked]
    rfl
  rw [InspectResult.ofJson, shaped]
  change (InspectResult.variables? (.array (r.bindings.map VariableInfo.toJson)) >>= fun vs =>
    .ok (⟨r.success, r.count, vs⟩ : InspectResult)) = .ok r
  rw [read]
  rfl

/-- What was written for a response other than a status means that response. -/
theorem ofTagged_members (r : Response) (answers : r.tag ≠ .status) :
    ofTagged r.tag (.object r.members) = .ok r := by
  cases r with
  | execute r =>
    obtain ⟨success, stdout, stderr, error⟩ := r
    cases error <;> rfl
  | inspect r =>
    have read : ofTagged .inspect (.object r.members)
        = InspectResult.ofJson (.object r.members) >>= fun r => .ok (inspect r) := rfl
    rw [tag, members, read, inspect_read]
    rfl
  | reset r => rfl
  | status r => exact absurd rfl answers
  | error success message => rfl

/-! ### Members -/

theorem plain_toJson (room : Nat) (v : VariableInfo) : Plain (room + 1) v.toJson := by
  refine .object fun m inside => ?_
  simp only [List.mem_cons, List.not_mem_nil, or_false] at inside
  rcases inside with rfl | rfl | rfl | rfl | rfl
  · exact .string _
  · exact .string _
  · exact .natural _
  · exact .string _
  · exact .string _

theorem plain_members (room : Nat) (r : Response) (answers : r.tag ≠ .status) :
    ∀ m ∈ r.members, Plain (room + 2) m.2 := by
  intro m inside
  cases r with
  | execute r =>
    obtain ⟨success, stdout, stderr, error⟩ := r
    simp only [members, ExecuteResult.members, List.mem_cons, List.not_mem_nil, or_false] at inside
    rcases inside with rfl | rfl | rfl | rfl
    · exact .bool _
    · exact .string _
    · exact .string _
    · cases error
      · exact .null
      · exact .string _
  | inspect r =>
    simp only [members, InspectResult.members, List.mem_cons, List.not_mem_nil, or_false] at inside
    rcases inside with rfl | rfl | rfl
    · exact .bool _
    · exact .natural _
    · refine .array fun j item => ?_
      obtain ⟨v, _, rfl⟩ := List.mem_map.1 item
      exact plain_toJson room v
  | reset r =>
    simp only [members, ResetResult.members, List.mem_cons, List.not_mem_nil, or_false] at inside
    rcases inside with rfl | rfl
    · exact .bool _
    · exact .string _
  | status r => exact absurd rfl answers
  | error success message =>
    simp only [members, List.mem_cons, List.not_mem_nil, or_false] at inside
    rcases inside with rfl | rfl
    · exact .bool _
    · exact .string _

theorem action_ne_of_mem {r : Response} {m : String × Json} (inside : m ∈ r.members) :
    m.1 ≠ "action" := by
  cases r <;>
    simp only [members, ExecuteResult.members, InspectResult.members, ResetResult.members,
      StatusResult.members, List.mem_cons, List.not_mem_nil, or_false] at inside <;>
    grind

variable {s : String}

theorem ofText_text (tag : Tag) : Tag.ofText? tag.text = some tag := by
  cases tag <;> rfl

theorem readTag_of_ahead {tag : Tag} {p : s.Pos} {rest : List Char}
    (h : ahead p = (Json.string tag.text).text.toList ++ rest) : Gives (readTag p) tag rest := by
  obtain ⟨q, name, left⟩ := text_of_ahead h
  refine ⟨q, ?_, left⟩
  rw [readTag, name]
  simp only [ofText_text]

theorem members_of_others {others : List (String × Json)} (plain : ∀ m ∈ others, Plain maxInside m.2)
    (other : ∀ m ∈ others, m.1 ≠ "action") {start : s.Pos} {p : From start} {first : Bool} {tag : Option Tag}
    (done : List (String × Json)) {rest : List Char} (h : ahead p.1 = memberChars first others ++ rest) :
    Gives (Wire.members member first ⟨tag, done⟩ p) ⟨tag, others.reverse ++ done⟩ rest := by
  induction others generalizing p first done with
  | nil => exact members_nil_of_ahead h
  | cons m others ih =>
    obtain ⟨name, j⟩ := m
    have unknown : name ≠ "action" := other (name, j) List.mem_cons_self
    have value_read := (plain (name, j) List.mem_cons_self).readsBack
    have reads (q : s.Pos)
        (left : ahead q = ':' :: (j.text.toList ++ (memberChars false others ++ rest))) :
        Gives (member name ⟨tag, done⟩ q) ⟨tag, (name, j) :: done⟩ (memberChars false others ++ rest) := by
      rw [member, if_neg unknown]
      refine Gives.map _ (afterColon_of_ahead left fun r behind => ?_)
      exact value_read s r _ (endsNumber_memberChars others rest) behind
    refine members_cons_of_ahead h reads fun q left => ?_
    have := ih (fun m mem => plain m (List.mem_cons_of_mem _ mem))
      (fun m mem => other m (List.mem_cons_of_mem _ mem)) ((name, j) :: done) left
    simpa using this

theorem readParts_of_text (r : Response) (answers : r.tag ≠ .status) {p : s.Pos} {rest : List Char}
    (h : ahead p = r.text.toList ++ rest) :
    Gives (readParts p) (some r.tag, .object r.members) rest := by
  rw [text, toJson, toList_text_object, List.cons_append] at h
  obtain ⟨q, found, left⟩ := nextVisible_of_ahead h (by decide)
  have action (q : s.Pos) (at_colon : ahead q = ':' :: ((Json.string r.tag.text).text.toList
      ++ (memberChars false r.members ++ rest))) :
      Gives (member "action" ⟨none, []⟩ q) ⟨some r.tag, []⟩ (memberChars false r.members ++ rest) := by
    rw [member, if_pos rfl]
    exact (afterColon_of_ahead at_colon fun _ => readTag_of_ahead).map _
  have read : Gives (Wire.members member true ⟨none, []⟩ (.here q.1)) ⟨some r.tag, r.members.reverse⟩
      rest := by
    refine members_cons_of_ahead left action fun q behind => ?_
    simpa using members_of_others (r.plain_members 124 answers) (fun _ => action_ne_of_mem) [] behind
  have shown := (read.map fun parts => (parts.tag, Json.object parts.others.reverse)).behind.afterSpace
  rw [readParts]
  simp only [found]
  simpa using shown

/-! ### The whole document -/

theorem readParts_text (r : Response) (answers : r.tag ≠ .status) :
    Gives (readParts r.text.startPos) (some r.tag, .object r.members) [] :=
  readParts_of_text r answers (by rw [ahead_startPos, List.append_nil])

theorem ofText_text_self (r : Response) (answers : r.tag ≠ .status) : ofText r.text = .ok r := by
  refine whole_of_gives ?_
  obtain ⟨q, parts, left⟩ := readParts_text r answers
  refine ⟨q, ?_, left⟩
  rw [read, parts]
  simp only [ofTagged_members r answers]

theorem ofBytes_bytes (r : Response) (answers : r.tag ≠ .status) : ofBytes r.text.toUTF8 = .ok r := by
  rw [ofBytes, fromUTF8_toUTF8]
  simp only [ofText_text_self r answers]

/-! ### Documents that are cut off -/

variable {t : String} {more : List Char}

theorem not_wrongType {α : Type} {expected : String} {p : s.Pos} {x : α × After p} :
    wrongType expected p ≠ .ok x := by
  unfold wrongType
  split <;> simp

theorem carriesText {expected : String} {p : s.Pos} {p' : t.Pos} (grown : Extends more p p') :
    Carries more true (Wire.text expected p) (Wire.text expected p') := by
  refine Carries.afterSpace ?_
  intro x q read inside
  split at read
  · next r found =>
    obtain ⟨r', found', grown'⟩ := grown.nextVisible found
    rw [found']
    exact grown'.carriesString.behind x q read inside
  · exact absurd read not_wrongType

theorem carriesReadTag {p : s.Pos} {p' : t.Pos} (grown : Extends more p p') :
    Carries more false (readTag p) (readTag p') := by
  intro tag q read _
  unfold readTag at read ⊢
  split at read
  · cases read
  · next name r found =>
    obtain ⟨r', found', grown'⟩ := carriesText grown name r found (by simp)
    cases known : Tag.ofText? name with
    | none =>
      simp only [known] at read
      cases read
    | some named =>
      simp only [known] at read
      cases read
      exact ⟨r', by simp only [found', known], grown'⟩

theorem local_member (name : String) : Local (s := s) (t := t) more (member name) (member name) := by
  intro parts p p' grown
  unfold member
  split
  · split
    · exact .error
    · exact (Extends.carriesAfterColon (fun _ _ => carriesReadTag) grown).map _
  · exact (Extends.carriesAfterColon (fun _ _ => Extends.carriesValue maxInside) grown).map _

/-- A text that begins with a bracket and has a tag and parts has the same ones when it goes on. -/
theorem readParts_of_extends {p : s.Pos} {p' : t.Pos} {cs : List Char} (grown : Extends more p p')
    (curly : ahead p = '\x7b' :: cs) : Carries more true (readParts p) (readParts p') := by
  obtain ⟨q, found, _⟩ := nextVisible_of_ahead curly (by decide)
  obtain ⟨q', found', grown'⟩ := grown.nextVisible found
  have here : Extends more (From.here q.1).1 (From.here q'.1).1 := grown'
  have inside : Carries more true (Wire.members member true ⟨none, []⟩ (.here q.1))
      (Wire.members member true ⟨none, []⟩ (.here q'.1)) := here.members local_member
  unfold readParts
  simp only [found, found']
  exact (inside.map _).behind.afterSpace

theorem not_readParts_of_nil {p : s.Pos} {x : (Option Tag × Json) × After p} (empty : ahead p = []) :
    readParts p ≠ .ok x := by
  have nothing : next? (skipSpace p).1 = none := by
    have stay : spaceEnd p = p := by rw [spaceEnd, next?_eq_none_iff.2 empty]
    exact next?_eq_none_iff.2 ((congrArg ahead stay).trans empty)
  intro read
  rw [readParts] at read
  simp only [nothing] at read
  cases wrong : wrongType (α := Option Tag × Json) "internally tagged enum Response" (skipSpace p).1 with
  | error e =>
    rw [wrong] at read
    cases read
  | ok y => exact absurd wrong not_wrongType

/-- What is missing some characters at its end is no document. -/
theorem not_ofText_of_cut (r r' : Response) (answers : r.tag ≠ .status) {cut : String}
    (shorter : r.text.toList = cut.toList ++ more) (missing : more ≠ []) : ofText cut ≠ .ok r' := by
  intro accepted
  obtain ⟨parts, q, read⟩ : ∃ parts q, readParts cut.startPos = .ok (parts, q) := by
    cases parts : readParts cut.startPos with
    | error e => simp [ofText, whole, Response.read, parts] at accepted
    | ok x => exact ⟨x.1, x.2, rfl⟩
  have grown : Extends more cut.startPos r.text.startPos := by
    rw [Extends, ahead_startPos, ahead_startPos, shorter]
  obtain ⟨cs, curly⟩ : ∃ cs, ahead cut.startPos = '\x7b' :: cs := by
    cases chars : ahead cut.startPos with
    | nil => exact absurd read (not_readParts_of_nil chars)
    | cons c cs =>
      rw [ahead_startPos] at chars
      rw [chars, text, toJson, toList_text_object, List.cons_append] at shorter
      rw [(List.cons.inj shorter).1]
      exact ⟨cs, rfl⟩
  obtain ⟨q₁, read₁, behind⟩ := readParts_of_extends grown curly parts q read (by simp)
  obtain ⟨q₂, read₂, left⟩ := readParts_text r answers
  cases read₁.symm.trans read₂
  rw [Extends, left] at behind
  exact missing (List.append_eq_nil_iff.1 behind.symm).2

/-- No proper prefix of the bytes of a response is a response. -/
theorem not_ofBytes_of_cut (r r' : Response) (answers : r.tag ≠ .status) {front : ByteArray}
    {back : List UInt8} (split : octets r.text.toUTF8 = octets front ++ back) (missing : back ≠ []) :
    ofBytes front ≠ .ok r' := by
  intro accepted
  cases decoded : String.fromUTF8? front with
  | none => simp [ofBytes, decoded] at accepted
  | some cut =>
    have whole : cut.toUTF8 ++ back.toByteArray = r.text.toUTF8 := by
      rw [← octets_inj, split, octets_append, toUTF8_of_fromUTF8 decoded, octets_toByteArray]
    -- A text is cut between characters wherever its bytes are cut so that they still are a text.
    have isPrefix : cut.toList <+: r.text.toList := by
      refine List.isPrefix_of_utf8Encode_append_eq_utf8Encode back.toByteArray ?_
      rw [String.utf8Encode_toList, String.utf8Encode_toList]
      exact whole
    obtain ⟨more, shorter⟩ := isPrefix
    refine not_ofText_of_cut r r' answers shorter.symm ?_ ?_
    · rintro rfl
      rw [List.append_nil, String.toList_inj] at shorter
      rw [← toUTF8_of_fromUTF8 decoded, shorter] at split
      exact missing (List.append_right_eq_self.1 split.symm)
    · simp only [ofBytes, decoded] at accepted
      cases read : ofText cut with
      | error e =>
        rw [read] at accepted
        cases accepted
      | ok x =>
        rw [read] at accepted
        cases accepted
        rfl

/-! ### Chunks -/

/-- The accumulator after some chunks. -/
def pushAll (a : Accumulator) (chunks : List ByteArray) : Accumulator :=
  chunks.foldl (fun a chunk => (a.push chunk).2) a

theorem octets_pushAll (a : Accumulator) (chunks : List ByteArray) :
    octets (pushAll a chunks).buffer = octets a.buffer ++ chunks.flatMap octets := by
  induction chunks generalizing a with
  | nil => simp [pushAll]
  | cons chunk chunks ih =>
    rw [pushAll, List.foldl_cons, ← pushAll, ih]
    simp [Accumulator.push]

theorem complete?_of_filled {a : Accumulator} (filled : a.buffer.size ≠ 0) :
    a.complete? = (ofBytes a.buffer).toOption := if_neg filled

/-- A response that is no status comes out of any chunks whole, with the last of them and not before. -/
theorem complete_at_last_chunk (r : Response) (answers : r.tag ≠ .status)
    (fits : r.text.toUTF8.size ≤ maxFrameSize) :
    ofBytes r.text.toUTF8 = .ok r ∧
      (∀ front back, octets r.text.toUTF8 = octets front ++ back → back ≠ [] →
        ∀ r', ofBytes front ≠ .ok r') ∧
      ∀ before chunk after, (∀ c ∈ before ++ chunk :: after, 0 < c.size) →
        octets r.text.toUTF8 = (before ++ chunk :: after).flatMap octets →
        ((pushAll .empty before).push chunk).1 = none ∧
          ((pushAll .empty before).push chunk).2.complete? = if after.isEmpty then some r else none := by
  refine ⟨ofBytes_bytes r answers, fun front back split missing r' =>
    not_ofBytes_of_cut r r' answers split missing, ?_⟩
  intro before chunk after filled split
  have so_far : octets ((pushAll .empty before).buffer ++ chunk)
      = before.flatMap octets ++ octets chunk := by
    rw [octets_append, octets_pushAll]
    simp [Accumulator.empty]
  have cut : octets r.text.toUTF8
      = octets ((pushAll .empty before).buffer ++ chunk) ++ after.flatMap octets := by
    rw [split, so_far]
    simp
  have small : ¬ maxFrameSize < ((pushAll .empty before).buffer ++ chunk).size := by
    have sizes := congrArg List.length cut
    rw [List.length_append, length_octets, length_octets] at sizes
    omega
  have begun : ((pushAll .empty before).push chunk).2.buffer.size ≠ 0 := by
    have := filled chunk (by simp)
    change ((pushAll .empty before).buffer ++ chunk).size ≠ 0
    rw [ByteArray.size_append]
    omega
  refine ⟨if_neg small, ?_⟩
  rw [complete?_of_filled begun]
  change (ofBytes ((pushAll .empty before).buffer ++ chunk)).toOption = _
  cases after with
  | nil =>
    rw [List.flatMap_nil, List.append_nil, octets_inj] at cut
    rw [← cut, ofBytes_bytes r answers]
    rfl
  | cons next others =>
    have missing : (next :: others).flatMap octets ≠ [] := by
      intro none_left
      rw [List.flatMap_cons, List.append_eq_nil_iff] at none_left
      have := filled next (by simp)
      rw [← length_octets, none_left.1] at this
      exact absurd this (by decide)
    cases decoded : ofBytes ((pushAll .empty before).buffer ++ chunk) with
    | error e => rfl
    | ok r' => exact absurd decoded (not_ofBytes_of_cut r r' answers cut missing)

/-- A refusal, in two chunks. -/
theorem complete_at_last_chunk_of_error :
    let r := error false "no"
    let bytes := r.text.toUTF8
    ofBytes bytes = .ok r ∧
      ((pushAll .empty [bytes.extract 0 9]).push (bytes.extract 9 bytes.size)).2.complete? = some r := by
  intro r bytes
  have document : r.text.toList
      = "\x7b\"action\":\"error\",\"success\":false,\"error\":\"no\"\x7d".toList := by
    simp only [r, text, toJson, toList_text_object, memberChars, toList_quote, members,
      toList_text_string, quoted]
    decide
  have size : bytes.size = 47 := by
    simp only [bytes, String.toList_inj.1 document]
    decide
  have answers : r.tag ≠ .status := by decide
  have fits : bytes.size ≤ maxFrameSize := by
    rw [size]
    decide
  have split : octets bytes = [bytes.extract 0 9, bytes.extract 9 bytes.size].flatMap octets := by
    have rest : ((octets bytes).drop 9).take (bytes.size - 9) = (octets bytes).drop 9 :=
      List.take_of_length_le (by simp)
    simp [octets_extract, rest]
  obtain ⟨read, _, chunks⟩ := complete_at_last_chunk r answers fits
  refine ⟨read, (chunks [bytes.extract 0 9] (bytes.extract 9 bytes.size) [] ?_ split).2⟩
  simp [size]

end SnippetKernel.Response
