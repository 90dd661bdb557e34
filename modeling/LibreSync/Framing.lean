import LibreSync.RecordKey

/-! Messages on a connection, one JSON text a line, and how a reader meets the end of the stream. -/

namespace LibreSync

def decodeUtf8 (bytes : Bytes) : Option String := String.fromUTF8? ⟨bytes.toArray⟩

/-- `serde_json` at a type of messages: a message is read back from its text, which has no raw line
break, and no other text that it starts with is a message. -/
structure MessageCodec (M : Type) where
  toText : M → String
  ofText : String → Except Error M
  ofText_toText : ∀ message, ofText (toText message) = .ok message
  nonempty : ∀ message, toText message ≠ ""
  unbroken : ∀ message, ∀ byte ∈ utf8 (toText message), byte ≠ 10 ∧ byte ≠ 13
  whole : ∀ message begun, utf8 begun <+: utf8 (toText message) → begun ≠ toText message →
    ∃ error, ofText begun = .error error

/-- `read_line` of a reader that gives at most so many bytes. -/
def takeLine : Nat → Bytes → Bytes × Bytes
  | _, [] => ([], [])
  | limit, byte :: rest =>
      if limit = 0 then ([], byte :: rest)
      else if byte = 10 then ([byte], rest)
      else
        let (line, rest) := takeLine (limit - 1) rest
        (byte :: line, rest)

def trimLineEnd (line : String) : String :=
  String.ofList (line.toList.rdropWhile fun char => char = '\n' || char = '\r')

section Messages

variable {M : Type} (codec : MessageCodec M) (limit : Nat)

def writeMessage (message : M) : Bytes := utf8 (codec.toText message) ++ [10]

def readMessageWithLimit (stream : Bytes) : Except Error M × Bytes :=
  let (bytes, rest) := takeLine limit stream
  match decodeUtf8 bytes with
  | none => (.error (.io "stream did not contain valid UTF-8"), rest)
  | some line =>
      if bytes.length = 0 then (.error (.protocol "unexpected EOF"), rest)
      else if line.toList.getLast? ≠ some '\n' ∧ limit ≤ bytes.length then
        (.error (.protocol s!"message exceeds {limit} bytes"), rest)
      else (codec.ofText (trimLineEnd line), rest)

def readMessages : Nat → Bytes → List (Except Error M) × Bytes
  | 0, stream => ([], stream)
  | count + 1, stream =>
      let (message, stream) := readMessageWithLimit codec limit stream
      let (messages, stream) := readMessages count stream
      (message :: messages, stream)

end Messages

theorem decodeUtf8_utf8 (text : String) : decodeUtf8 (utf8 text) = some text := by
  have whole : (⟨(utf8 text).toArray⟩ : ByteArray) = text.toByteArray := rfl
  rw [decodeUtf8, whole, String.fromUTF8?, dif_pos text.isValidUTF8]
  rfl

theorem utf8_of_decodeUtf8 {bytes : Bytes} {text : String} (decoded : decodeUtf8 bytes = some text) :
    utf8 text = bytes := by
  rw [decodeUtf8, String.fromUTF8?] at decoded
  split at decoded
  · obtain rfl := Option.some.inj decoded
    rfl
  · simp at decoded

theorem unbroken_chars {text : String} (unbroken : ∀ byte ∈ utf8 text, byte ≠ 10 ∧ byte ≠ 13) :
    ∀ char ∈ text.toList, char ≠ '\n' ∧ char ≠ '\r' := by
  have inside : ∀ char ∈ text.toList, ∀ byte ∈ String.utf8EncodeChar char, byte ∈ utf8 text := by
    intro char member byte part
    rw [utf8_chars]
    exact List.mem_flatMap.mpr ⟨char, member, part⟩
  intro char member
  constructor
  · rintro rfl
    exact (unbroken 10 (inside _ member 10 (by decide))).1 rfl
  · rintro rfl
    exact (unbroken 13 (inside _ member 13 (by decide))).2 rfl

theorem trimLineEnd_self {text : String} (unbroken : ∀ char ∈ text.toList, char ≠ '\n' ∧ char ≠ '\r') :
    trimLineEnd text = text := by
  have last : text.toList.rdropWhile (fun char => char = '\n' || char = '\r') = text.toList := by
    refine List.rdropWhile_eq_self_iff.mpr fun present => ?_
    have clear := unbroken _ (List.getLast_mem present)
    simpa using clear
  rw [trimLineEnd, last, String.ofList_toList]

theorem trimLineEnd_line {text : String} (unbroken : ∀ char ∈ text.toList, char ≠ '\n' ∧ char ≠ '\r') :
    trimLineEnd (text ++ "\n") = text := by
  have chars : (text ++ "\n").toList = text.toList ++ ['\n'] := String.toList_append
  have whole := trimLineEnd_self unbroken
  rw [trimLineEnd] at whole ⊢
  rw [chars, List.rdropWhile_concat_pos _ _ _ (by decide), whole]

theorem takeLine_line {line rest : Bytes} {limit : Nat} (unbroken : ∀ byte ∈ line, byte ≠ 10)
    (fits : line.length + 1 ≤ limit) :
    takeLine limit (line ++ 10 :: rest) = (line ++ [10], rest) := by
  induction line generalizing limit with
  | nil =>
      have room : limit ≠ 0 := by
        simp at fits
        omega
      simp [takeLine, room]
  | cons byte line ih =>
      obtain ⟨here, later⟩ := List.forall_mem_cons.mp unbroken
      simp only [List.length_cons] at fits
      have room : limit ≠ 0 := by omega
      have tail := ih later (show line.length + 1 ≤ limit - 1 by omega)
      simp only [List.cons_append, takeLine, room, here, if_false, tail]

theorem takeLine_end {line : Bytes} {limit : Nat} (unbroken : ∀ byte ∈ line, byte ≠ 10)
    (fits : line.length ≤ limit) : takeLine limit line = (line, []) := by
  induction line generalizing limit with
  | nil => rfl
  | cons byte line ih =>
      obtain ⟨here, later⟩ := List.forall_mem_cons.mp unbroken
      simp only [List.length_cons] at fits
      have room : limit ≠ 0 := by omega
      have tail := ih later (show line.length ≤ limit - 1 by omega)
      simp only [takeLine, room, here, if_false, tail]

section Reading

variable {M : Type} (codec : MessageCodec M) {limit : Nat}

theorem readMessageWithLimit_writeMessage (message : M) (rest : Bytes)
    (fits : (writeMessage codec message).length ≤ limit) :
    readMessageWithLimit codec limit (writeMessage codec message ++ rest) = (.ok message, rest) := by
  have unbroken := codec.unbroken message
  simp only [writeMessage, List.length_append, List.length_singleton] at fits
  have line : takeLine limit (writeMessage codec message ++ rest) =
      (utf8 (codec.toText message) ++ [10], rest) := by
    rw [writeMessage, List.append_assoc]
    exact takeLine_line (fun byte member => (unbroken byte member).1) fits
  have text : decodeUtf8 (utf8 (codec.toText message) ++ [10]) =
      some (codec.toText message ++ "\n") := by
    have bytes : utf8 (codec.toText message ++ "\n") = utf8 (codec.toText message) ++ [10] :=
      utf8_append _ _
    rw [← bytes, decodeUtf8_utf8]
  have ends : (codec.toText message ++ "\n").toList.getLast? = some '\n' := by
    rw [String.toList_append]
    exact List.getLast?_concat
  simp only [readMessageWithLimit, line, text, List.length_append, List.length_singleton, ends,
    ne_eq, not_true, false_and, if_false, Nat.add_eq_zero_iff, Nat.one_ne_zero, and_false,
    trimLineEnd_line (unbroken_chars unbroken), codec.ofText_toText]

/-- A line that the stream ends in is read as a message exactly if only its newline is missing. -/
theorem readMessageWithLimit_cut {message : M} {cut : Nat}
    (within : cut < (writeMessage codec message).length)
    (fits : (writeMessage codec message).length ≤ limit) :
    (∃ error, (readMessageWithLimit codec limit ((writeMessage codec message).take cut)).1 =
      .error error) ↔ cut ≠ (utf8 (codec.toText message)).length := by
  have unbroken := codec.unbroken message
  simp only [writeMessage, List.length_append, List.length_singleton] at within fits
  have stream : (writeMessage codec message).take cut = (utf8 (codec.toText message)).take cut := by
    rw [writeMessage, List.take_append_of_le_length (by omega)]
  have shorter : ((utf8 (codec.toText message)).take cut).length = cut := by
    rw [List.length_take]
    omega
  have line : takeLine limit ((utf8 (codec.toText message)).take cut) =
      ((utf8 (codec.toText message)).take cut, []) :=
    takeLine_end (fun byte member => (unbroken byte (List.mem_of_mem_take member)).1)
      (by omega)
  rw [stream]
  simp only [readMessageWithLimit, line]
  cases decoded : decodeUtf8 ((utf8 (codec.toText message)).take cut) with
  | none =>
      refine ⟨fun _ same => ?_, fun _ => ⟨_, rfl⟩⟩
      rw [same, List.take_length, decodeUtf8_utf8] at decoded
      simp at decoded
  | some begun =>
      have bytes := utf8_of_decodeUtf8 decoded
      have started : utf8 begun <+: utf8 (codec.toText message) := bytes ▸ List.take_prefix _ _
      have clear : ∀ char ∈ begun.toList, char ≠ '\n' ∧ char ≠ '\r' := by
        refine unbroken_chars fun byte member => unbroken byte ?_
        exact started.subset member
      have same : begun = codec.toText message ↔ cut = (utf8 (codec.toText message)).length := by
        constructor
        · rintro rfl
          rw [← shorter, ← bytes]
        · rintro rfl
          rw [List.take_length] at bytes
          exact utf8_injective bytes
      have short : ¬limit ≤ cut := by omega
      simp only [shorter, short, and_false, if_false, trimLineEnd_self clear]
      split
      · rename_i empty
        refine ⟨fun _ full => codec.nonempty message ?_, fun _ => ⟨_, rfl⟩⟩
        refine utf8_injective ((List.length_eq_zero_iff.mp (full ▸ empty)).trans ?_)
        decide
      · constructor
        · rintro ⟨error, failed⟩ full
          rw [same.mpr full, codec.ofText_toText] at failed
          simp at failed
        · intro part
          exact codec.whole message begun started (mt same.mp part)

def writeMessages (messages : List M) : Bytes := messages.flatMap (writeMessage codec)

theorem readMessages_writeMessages {messages : List M} (rest : Bytes)
    (fits : ∀ message ∈ messages, (writeMessage codec message).length ≤ limit) :
    readMessages codec limit messages.length (writeMessages codec messages ++ rest) =
      (messages.map .ok, rest) := by
  induction messages with
  | nil => rfl
  | cons message later ih =>
      obtain ⟨first, others⟩ := List.forall_mem_cons.mp fits
      simp only [writeMessages] at ih ⊢
      rw [List.flatMap_cons, List.append_assoc]
      simp only [List.length_cons, readMessages,
        readMessageWithLimit_writeMessage codec message _ first, ih others, List.map_cons]

theorem writeMessages_cut {messages : List M} {cut : Nat}
    (within : cut < (writeMessages codec messages).length) :
    ∃ before message after offset, messages = before ++ message :: after ∧
      offset < (writeMessage codec message).length ∧
      (writeMessages codec messages).take cut =
        writeMessages codec before ++ (writeMessage codec message).take offset ∧
      (writeMessages codec messages)[cut]? = (writeMessage codec message)[offset]? := by
  induction messages generalizing cut with
  | nil => simp [writeMessages] at within
  | cons message later ih =>
      simp only [writeMessages] at within ih ⊢
      rw [List.flatMap_cons, List.length_append] at within
      by_cases inside : cut < (writeMessage codec message).length
      · refine ⟨[], message, later, cut, rfl, inside, ?_, ?_⟩
        · rw [List.flatMap_cons, List.take_append_of_le_length inside.le]
          rfl
        · rw [List.flatMap_cons, List.getElem?_append_left inside]
      · obtain ⟨before, next, after, offset, rfl, offsetWithin, start, removed⟩ :=
          ih (show cut - (writeMessage codec message).length < _ by omega)
        refine ⟨message :: before, next, after, offset, rfl, offsetWithin, ?_, ?_⟩
        · rw [List.flatMap_cons, List.take_append, List.take_of_length_le (not_lt.mp inside), start,
            List.flatMap_cons, List.append_assoc]
        · rw [List.flatMap_cons, List.getElem?_append_right (not_lt.mp inside), removed]

/-- Messages are read back in the order in which they were written. Where the stream ends early, the
messages before are read, and the read that meets the end fails exactly if what is missing does not
begin with a newline. -/
theorem readMessages_framed {messages : List M}
    (fits : ∀ message ∈ messages, (writeMessage codec message).length ≤ limit) :
    readMessages codec limit messages.length (writeMessages codec messages) =
        (messages.map .ok, []) ∧
      ∀ cut < (writeMessages codec messages).length, ∃ count < messages.length, ∃ rest,
        readMessages codec limit count ((writeMessages codec messages).take cut) =
          ((messages.take count).map .ok, rest) ∧ (∀ byte ∈ rest, byte ≠ 10) ∧
        ((∃ error, (readMessageWithLimit codec limit rest).1 = .error error) ↔
          (writeMessages codec messages)[cut]? ≠ some 10) := by
  refine ⟨?_, fun cut within => ?_⟩
  · have whole := readMessages_writeMessages codec [] fits
    rwa [List.append_nil] at whole
  · obtain ⟨before, message, after, offset, rfl, inside, start, removed⟩ :=
      writeMessages_cut codec within
    have earlier : ∀ message ∈ before, (writeMessage codec message).length ≤ limit :=
      fun other member => fits other (List.mem_append_left _ member)
    have last := fits message (by simp)
    have unbroken := codec.unbroken message
    refine ⟨before.length, by simp, (writeMessage codec message).take offset, ?_, ?_, ?_⟩
    · rw [start, readMessages_writeMessages codec _ earlier, List.take_left]
    · intro byte member
      have size : offset ≤ (utf8 (codec.toText message)).length := by
        simp only [writeMessage, List.length_append, List.length_singleton] at inside
        omega
      rw [writeMessage, List.take_append_of_le_length size] at member
      exact (unbroken byte (List.mem_of_mem_take member)).1
    · rw [readMessageWithLimit_cut codec inside last, removed, writeMessage]
      by_cases early : offset < (utf8 (codec.toText message)).length
      · rw [List.getElem?_append_left early, List.getElem?_eq_getElem early]
        have clear := (unbroken _ (List.getElem_mem early)).1
        simpa [clear] using early.ne
      · have full : offset = (utf8 (codec.toText message)).length := by
          simp only [writeMessage, List.length_append, List.length_singleton] at inside
          omega
        simp [full]

end Reading

inductive Signal
  | ack
  | snapshotRequest
  deriving DecidableEq

def Signal.text : Signal → String
  | ack => "\x7b\"type\":\"Ack\"\x7d"
  | snapshotRequest => "\x7b\"type\":\"SnapshotRequest\"\x7d"

def Signal.ofText (text : String) : Except Error Signal :=
  if text = Signal.text ack then .ok ack
  else if text = Signal.text snapshotRequest then .ok snapshotRequest
  else .error (.serde "expected value")

theorem Signal.ofText_ok {text : String} {signal : Signal}
    (read : Signal.ofText text = .ok signal) : text = signal.text := by
  rw [Signal.ofText] at read
  split at read
  · rename_i same
    rwa [← Except.ok.inj read]
  · split at read
    · rename_i same
      rwa [← Except.ok.inj read]
    · exact absurd read (by simp)

def signalCodec : MessageCodec Signal where
  toText := Signal.text
  ofText := Signal.ofText
  ofText_toText := by
    intro signal
    cases signal <;> decide
  nonempty := by
    intro signal
    cases signal <;> decide
  unbroken := by
    intro signal
    cases signal <;> decide +kernel
  whole := by
    intro message begun started other
    cases read : Signal.ofText begun with
    | error error => exact ⟨error, rfl⟩
    | ok signal =>
        obtain rfl := Signal.ofText_ok read
        have apart : ∀ first second : Signal, utf8 first.text <+: utf8 second.text →
            first = second := by
          intro first second
          cases first <;> cases second <;> decide +kernel
        exact absurd (congrArg Signal.text (apart _ _ started)) other

theorem readMessages_signals :
    (∀ message ∈ [Signal.snapshotRequest, .ack], (writeMessage signalCodec message).length ≤ 27) ∧
      readMessages signalCodec 27 2 (writeMessages signalCodec [.snapshotRequest, .ack]) =
        ([.ok .snapshotRequest, .ok .ack], []) := by
  have fits : ∀ message ∈ [Signal.snapshotRequest, .ack],
      (writeMessage signalCodec message).length ≤ 27 := by
    decide +kernel
  exact ⟨fits, (readMessages_framed signalCodec fits).1⟩

theorem readMessageWithLimit_unterminated :
    (writeMessage signalCodec .ack).dropLast <+: writeMessage signalCodec .ack ∧
      (writeMessage signalCodec .ack).dropLast ≠ writeMessage signalCodec .ack ∧
      (writeMessage signalCodec .ack).length ≤ 27 ∧
      (readMessageWithLimit signalCodec 27 (writeMessage signalCodec .ack).dropLast).1 =
        .ok .ack := by
  refine ⟨List.dropLast_prefix _, by decide +kernel, by decide +kernel, by decide +kernel⟩

end LibreSync
