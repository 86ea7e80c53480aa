/-
  File:      NutBluetti/Web/CaptiveDns.lean
  Subject:   THE CAPTIVE DNS (`dns_server.c`): which datagrams `dns_task` answers, and with what.

  * `dnsTurn` -- one turn of the task's loop, with `nameWalk` for the walk over the question's name;
  * **`dnsTurn_sent_iff`** -- a datagram is answered exactly if it has one question that the walk
    gets to the end of, with room for the answer behind it;
  * **`answers_dnsAnswer`** -- what is sent then repeats the question and holds one address record;
  * **`dns_answers_right_iff`** -- only the standard queries are answered, exactly if every question
    that is walked over is one: neither the header's flags nor type and class are looked at, nor
    the two top bits of a length byte.
-/
import NutBluetti.Lib.DnsMessage

namespace NutBluetti.Web

open Dns

/-! ## 1. The task -/

/-- `DNS_MAX` -/
def dnsMax : Nat := 512

/-- `while (p < n && rx[p] != 0) p += rx[p] + 1`, for so many rounds at most: where it ends, and
    `none` if it does not in these. -/
def nameWalk (rx : List UInt8) : Nat → Nat → Option Nat
  | 0, _ => none
  | rounds + 1, p =>
      if p < rx.length ∧ rx.getD p 0 ≠ 0 then nameWalk rx rounds (p + ((rx.getD p 0).toNat + 1))
      else some p

/-- What a turn of the loop does: `continue`, or `sendto`. -/
inductive Turn where
  | ignored
  | sent (tx : List UInt8)
  deriving DecidableEq

/-- What is put behind the question: name pointer, type, class, time to live, length and `s_ip`. -/
def answerRecord (ip : Bytes4) : List UInt8 :=
  [0xC0, 0x0C, 0x00, 0x01, 0x00, 0x01, 0x00, 0x00, 0x00, 0x3C, 0x00, 0x04] ++ ip.1

/-- `tx`: header and question of `rx` with the flags and the counts changed, and the answer. -/
def dnsAnswer (ip : Bytes4) (rx : List UInt8) (qend : Nat) : List UInt8 :=
  setWord (setWord (setWord (setWord (rx.take qend) 2 0x8180) 6 1) 8 0) 10 0 ++ answerRecord ip

/-- **One turn of `dns_task`**: `none` is a `recvfrom` that failed or timed out; of a long datagram
    `rx` holds the beginning. -/
def dnsTurn (ip : Bytes4) (rounds : Nat) (received : Option (List UInt8)) : Option Turn :=
  match received with
  | none => some .ignored
  | some datagram =>
      let rx := datagram.take dnsMax
      if rx.length < headerSize then some .ignored
      else if qdCount rx ≠ 1 then some .ignored
      else
        (nameWalk rx rounds headerSize).map fun p =>
          -- the zero length byte, QTYPE and QCLASS
          if p + 1 + 4 > rx.length ∨ p + 1 + 4 + 16 > dnsMax then .ignored
          else .sent (dnsAnswer ip rx (p + 1 + 4))

/-! ## 2. The walk over the name -/

/-- **The walk always ends**: each round leaves at least one byte behind. -/
theorem nameWalk_ends {rx : List UInt8} {rounds p : Nat} (hpos : 0 < rounds)
    (h : rx.length < p + rounds) : ∃ q, nameWalk rx rounds p = some q := by
  induction rounds generalizing p with
  | zero => exact absurd hpos (Nat.lt_irrefl 0)
  | succ rounds ih =>
      unfold nameWalk
      split
      case isTrue hc => exact ih (by omega) (by omega)
      case isFalse => exact ⟨p, rfl⟩

theorem le_nameWalk {rx : List UInt8} {rounds p q : Nat} (h : nameWalk rx rounds p = some q) :
    p ≤ q := by
  induction rounds generalizing p with
  | zero => cases h
  | succ rounds ih =>
      unfold nameWalk at h
      split at h
      · have hle := ih h
        omega
      · cases h
        exact Nat.le_refl _

/-- What stands at a place of the datagram, split off its rest. -/
theorem at_of_drop {rx : List UInt8} {p : Nat} {c : UInt8} {s : List UInt8}
    (h : rx.drop p = c :: s) :
    p < rx.length ∧ rx.getD p 0 = c ∧ ∀ k, rx.drop (p + (k + 1)) = s.drop k := by
  have hlt : p < rx.length := by
    have hlen := congrArg List.length h
    rw [List.length_drop, List.length_cons] at hlen
    omega
  refine ⟨hlt, ?_, fun k => ?_⟩
  · have hget : (rx.drop p)[0]? = some c := by rw [h]; rfl
    rw [List.getElem?_drop] at hget
    rw [List.getD_eq_getElem?_getD, show rx[p]? = some c from hget]
    rfl
  · rw [← List.drop_drop, h]
    rfl

/-- **Over a name the walk gets to the end of the name**, whatever the name is. -/
theorem nameWalk_of_name {rx more : List UInt8} {ls : List (List UInt8)} (hls : Within 255 ls)
    {rounds p q : Nat} (h : rx.drop p = encodeName ls ++ more)
    (hq : nameWalk rx rounds p = some q) :
    q + 1 = p + (encodeName ls).length := by
  induction ls generalizing rounds p with
  | nil =>
      obtain ⟨-, hzero, -⟩ := at_of_drop h
      cases rounds with
      | zero => cases hq
      | succ rounds =>
          unfold nameWalk at hq
          rw [if_neg (fun hc => hc.2 hzero)] at hq
          cases hq
          rfl
  | cons l ls ih =>
      obtain ⟨hl, hrest⟩ := within_cons.mp hls
      obtain ⟨hlt, hbyte, hdrop⟩ := at_of_drop h
      cases rounds with
      | zero => cases hq
      | succ rounds =>
          unfold nameWalk at hq
          rw [if_pos ⟨hlt, hbyte ▸ length_ne_zero hl⟩, hbyte, toNat_length hl.2] at hq
          have hnext : rx.drop (p + (l.length + 1)) = encodeName ls ++ more := by
            rw [hdrop, List.append_eq, List.append_assoc, List.drop_left]
          have hend := ih hrest hnext hq
          show q + 1 = p + ((l ++ encodeName ls).length + 1)
          rw [List.length_append]
          omega

/-- **A walk that ends inside the datagram has gone over a name.** -/
theorem name_of_nameWalk {rx : List UInt8} {rounds p q : Nat} (h : nameWalk rx rounds p = some q)
    (hq : q < rx.length) : ∃ ls more, Within 255 ls ∧ rx.drop p = encodeName ls ++ more := by
  induction rounds generalizing p with
  | zero => cases h
  | succ rounds ih =>
      have hp : p < rx.length := Nat.lt_of_le_of_lt (le_nameWalk h) hq
      have hhead : rx.drop p = rx.getD p 0 :: rx.drop (p + 1) := by
        rw [List.drop_eq_getElem_cons hp, List.getD_eq_getElem?_getD, List.getElem?_eq_getElem hp]
        rfl
      unfold nameWalk at h
      split at h
      case isTrue hc =>
        obtain ⟨ls, more, hls, hmore⟩ := ih h
        have hle := le_nameWalk h
        have hbyte := (rx.getD p 0).toNat_lt
        -- the label: as many bytes as the length byte says
        have hlen : ((rx.drop (p + 1)).take (rx.getD p 0).toNat).length = (rx.getD p 0).toNat := by
          rw [List.length_take, List.length_drop]
          omega
        refine ⟨(rx.drop (p + 1)).take (rx.getD p 0).toNat :: ls, more,
          within_cons.mpr ⟨⟨fun hnil => ?_, by omega⟩, hls⟩, ?_⟩
        · rw [hnil] at hlen
          exact hc.2 (UInt8.toNat_inj.mp hlen.symm)
        · have hrest : (rx.drop (p + 1)).drop (rx.getD p 0).toNat = encodeName ls ++ more := by
            rw [List.drop_drop, ← hmore]
            congr 1
            omega
          unfold encodeName
          rw [hlen, UInt8.ofNat_toNat, List.cons_append, List.append_assoc, ← hrest,
            List.take_append_drop]
          exact hhead
      case isFalse hc =>
        have hzero : rx.getD p 0 = 0 := Classical.byContradiction fun hne => hc ⟨hp, hne⟩
        refine ⟨[], rx.drop (p + 1), fun l hl => absurd hl List.not_mem_nil, ?_⟩
        rw [hhead, hzero]
        rfl

/-! ## 3. What is answered -/

/-- One question that the walk gets to the end of, with room for an answer behind it. A length byte
    may be any number here, as in the walk. -/
structure OneQuestion (d : List UInt8) (q : Question) (more : List UInt8) : Prop where
  one : qdCount d = 1
  labels : Within 255 q.labels
  here : d.drop headerSize = q.bytes ++ more
  room : headerSize + q.bytes.length + 16 ≤ dnsMax

theorem OneQuestion.length {d : List UInt8} {q : Question} {more : List UInt8}
    (h : OneQuestion d q more) : d.length = headerSize + (q.bytes.length + more.length) := by
  have hlen := congrArg List.length h.here
  rw [List.length_drop, List.length_append] at hlen
  have hbytes := q.length_bytes
  omega

/-- There is one such question at most. -/
theorem OneQuestion.unique {d : List UInt8} {q q' : Question} {more more' : List UInt8}
    (h : OneQuestion d q more) (h' : OneQuestion d q' more') : q = q' :=
  Question.bytes_prefix h.labels h'.labels (h.here.symm.trans h'.here)

variable {ip : Bytes4} {rounds : Nat} {d : List UInt8}

/-- What is left of a turn once the header is all right. -/
theorem dnsTurn_one (hd : d.length ≤ dnsMax) (hlen : headerSize ≤ d.length) (hone : qdCount d = 1) :
    dnsTurn ip rounds (some d) = (nameWalk d rounds headerSize).map fun p =>
      if p + 1 + 4 > d.length ∨ p + 1 + 4 + 16 > dnsMax then .ignored
      else .sent (dnsAnswer ip d (p + 1 + 4)) := by
  unfold dnsTurn
  simp only [List.take_of_length_le hd]
  rw [if_neg (by omega), if_neg (not_not_intro hone)]

/-- Without a header, or with another number of questions, nothing is sent. -/
theorem dnsTurn_header (hd : d.length ≤ dnsMax) {tx : List UInt8}
    (h : dnsTurn ip rounds (some d) = some (.sent tx)) : headerSize ≤ d.length ∧ qdCount d = 1 := by
  unfold dnsTurn at h
  simp only [List.take_of_length_le hd] at h
  split at h
  · cases h
  · rename_i hlen
    split at h
    · cases h
    · rename_i hone
      exact ⟨Nat.le_of_not_lt hlen, not_not.mp hone⟩

/-- Where the walk leaves room for type and class it has gone over the name of a question. -/
theorem question_of_nameWalk {p : Nat} (hp : nameWalk d rounds headerSize = some p)
    (hroom : p + 1 + 4 ≤ d.length) : ∃ (q : Question) (more : List UInt8), Within 255 q.labels ∧
      d.drop headerSize = q.bytes ++ more ∧ headerSize + q.bytes.length = p + 1 + 4 := by
  obtain ⟨ls, behind, hls, hname⟩ := name_of_nameWalk hp (by omega)
  have hend := nameWalk_of_name hls hname hp
  have hfour : 4 ≤ behind.length := by
    have hall := congrArg List.length hname
    rw [List.length_drop, List.length_append] at hall
    omega
  obtain ⟨t0, t1, c0, c1, more, rfl⟩ :
      ∃ t0 t1 c0 c1 more, behind = t0 :: t1 :: c0 :: c1 :: more := by
    match behind, hfour with
    | t0 :: t1 :: c0 :: c1 :: more, _ => exact ⟨t0, t1, c0, c1, more, rfl⟩
  have hlen := (Question.mk ls (ofBytes t0 t1) (ofBytes c0 c1)).length_bytes
  refine ⟨⟨ls, ofBytes t0 t1, ofBytes c0 c1⟩, more, hls, ?_, ?_⟩
  · rw [hname]
    unfold Question.bytes
    simp only [wordBytes_ofBytes, List.append_assoc]
    rfl
  · simp only at hlen
    omega

/-- **A datagram is answered exactly if it has such a question**, and up to its end it is
    repeated. -/
theorem dnsTurn_sent_iff (hd : d.length ≤ dnsMax) (hr : d.length < rounds) {tx : List UInt8} :
    dnsTurn ip rounds (some d) = some (.sent tx) ↔
      ∃ q more, OneQuestion d q more ∧ tx = dnsAnswer ip d (headerSize + q.bytes.length) := by
  constructor
  · intro h
    obtain ⟨hlen, hone⟩ := dnsTurn_header hd h
    rw [dnsTurn_one hd hlen hone] at h
    obtain ⟨p, hp, hturn⟩ := Option.map_eq_some_iff.mp h
    split at hturn
    · cases hturn
    · rename_i hfit
      obtain ⟨q, more, hls, hhere, hend⟩ := question_of_nameWalk hp (by omega)
      refine ⟨q, more, ⟨hone, hls, hhere, by omega⟩, ?_⟩
      rw [hend]
      exact (Turn.sent.inj hturn).symm
  · intro ⟨q, more, hq, htx⟩
    have hlen := hq.length
    have hroom := hq.room
    have hbytes := q.length_bytes
    obtain ⟨p, hp⟩ :=
      nameWalk_ends (Nat.zero_lt_of_lt hr) (show d.length < headerSize + rounds by omega)
    have hname : d.drop headerSize =
        encodeName q.labels ++ (wordBytes q.qtype ++ wordBytes q.qclass ++ more) := by
      rw [hq.here]
      unfold Question.bytes
      simp only [List.append_assoc]
    have hend := nameWalk_of_name hq.labels hname hp
    rw [htx, dnsTurn_one hd (by omega) hq.one, hp, Option.map_some, if_neg (by omega)]
    congr 3
    omega

/-- What is not answered is ignored. -/
theorem dnsTurn_ignored (hr : d.length < rounds)
    (h : ∀ tx, dnsTurn ip rounds (some d) ≠ some (.sent tx)) :
    dnsTurn ip rounds (some d) = some .ignored := by
  have hlen : (d.take dnsMax).length < headerSize + rounds := by
    have htake := List.length_take_le' dnsMax d
    omega
  obtain ⟨p, hp⟩ := nameWalk_ends (Nat.zero_lt_of_lt hr) hlen
  have hturn : ∃ t, dnsTurn ip rounds (some d) = some t := by
    unfold dnsTurn
    simp only [hp]
    split
    · exact ⟨_, rfl⟩
    · split
      · exact ⟨_, rfl⟩
      · exact ⟨_, rfl⟩
  obtain ⟨t, ht⟩ := hturn
  cases t with
  | ignored => exact ht
  | sent tx => exact absurd ht (h tx)

/-! ## 4. The answer -/

/-- An answer to the datagram: it fits, repeats the id and the question section, and holds one
    record, of the redirect address, and no others. -/
structure Answers (ip : Bytes4) (d tx : List UInt8) : Prop where
  size : tx.length ≤ dnsMax
  ident : ident tx = ident d
  response : isResponse tx = true
  counts : qdCount tx = 1 ∧ anCount tx = 1 ∧ nsCount tx = 0 ∧ arCount tx = 0
  body : ∃ q more ttl, OneQuestion d q more ∧ tx.drop headerSize = q.bytes ++ aRecord ttl ip

/-- `TTL 60s` -/
def ttlMinute : Bytes4 := ⟨[0x00, 0x00, 0x00, 0x3C], rfl⟩

theorem answerRecord_eq (ip : Bytes4) : answerRecord ip = aRecord ttlMinute ip := rfl

/-- The header of what is sent: id and question count are those of the query. -/
theorem header_dnsAnswer (ip : Bytes4) {qend : Nat} (hlo : headerSize ≤ qend)
    (hhi : qend ≤ d.length) :
    ident (dnsAnswer ip d qend) = ident d ∧ flags (dnsAnswer ip d qend) = 0x8180 ∧
      qdCount (dnsAnswer ip d qend) = qdCount d ∧ anCount (dnsAnswer ip d qend) = 1 ∧
      nsCount (dnsAnswer ip d qend) = 0 ∧ arCount (dnsAnswer ip d qend) = 0 := by
  unfold headerSize at hlo
  have hlen : (d.take qend).length = qend := List.length_take_of_le hhi
  have hbefore : ∀ i, i + 2 ≤ 12 → word (dnsAnswer ip d qend) i =
      word (setWord (setWord (setWord (setWord (d.take qend) 2 0x8180) 6 1) 8 0) 10 0) i :=
        fun i hi =>
    word_append (by simp only [length_setWord]; omega) _
  have hkept : ∀ i, i = 0 ∨ i = 4 → word (dnsAnswer ip d qend) i = word d i := by
    intro i hi
    rw [hbefore i (by omega), word_setWord_ne (by omega), word_setWord_ne (by omega),
      word_setWord_ne (by omega), word_setWord_ne (by omega), word_take (by omega)]
  refine ⟨hkept 0 (.inl rfl), ?_, hkept 4 (.inr rfl), ?_, ?_, ?_⟩
  · refine (hbefore 2 (by omega)).trans ?_
    rw [word_setWord_ne (by omega), word_setWord_ne (by omega), word_setWord_ne (by omega),
      word_setWord (by omega)]
  · refine (hbefore 6 (by omega)).trans ?_
    rw [word_setWord_ne (by omega), word_setWord_ne (by omega),
      word_setWord (by rw [length_setWord]; omega)]
  · refine (hbefore 8 (by omega)).trans ?_
    rw [word_setWord_ne (by omega), word_setWord (by simp only [length_setWord]; omega)]
  · refine (hbefore 10 (by omega)).trans ?_
    rw [word_setWord (by simp only [length_setWord]; omega)]

/-- Behind the header: the query up to the end of its question, and the record. -/
theorem drop_dnsAnswer (ip : Bytes4) {qend : Nat} (hlo : headerSize ≤ qend)
    (hhi : qend ≤ d.length) :
    (dnsAnswer ip d qend).drop headerSize =
      (d.drop headerSize).take (qend - headerSize) ++ answerRecord ip := by
  unfold dnsAnswer
  rw [List.drop_append_of_le_length, drop_setWord (by decide), drop_setWord (by decide),
    drop_setWord (by decide), drop_setWord (by decide), List.drop_take]
  simp only [length_setWord]
  rw [List.length_take_of_le hhi]
  exact hlo

/-- **What is sent is an answer.** -/
theorem answers_dnsAnswer {q : Question} {more : List UInt8} (h : OneQuestion d q more) :
    Answers ip d (dnsAnswer ip d (headerSize + q.bytes.length)) := by
  have hlen := h.length
  have hlo : headerSize ≤ headerSize + q.bytes.length := Nat.le_add_right _ _
  have hhi : headerSize + q.bytes.length ≤ d.length := by omega
  obtain ⟨hident, hflags, hqd, hcounts⟩ := header_dnsAnswer ip hlo hhi
  have hbody : (dnsAnswer ip d (headerSize + q.bytes.length)).drop headerSize =
      q.bytes ++ aRecord ttlMinute ip := by
    rw [drop_dnsAnswer ip hlo hhi, h.here, Nat.add_sub_cancel_left, List.take_left, answerRecord_eq]
  have hsize : (dnsAnswer ip d (headerSize + q.bytes.length)).length ≤ dnsMax := by
    have hall := congrArg List.length hbody
    rw [List.length_drop, List.length_append, length_aRecord] at hall
    have hroom := h.room
    omega
  exact {
    size := hsize
    ident := hident
    response := by unfold isResponse; rw [hflags]; rfl
    counts := ⟨hqd.trans h.one, hcounts⟩
    body := ⟨q, more, ttlMinute, h, hbody⟩ }

/-! ## 5. Only the standard queries -/

/-- A query for the address of a name, with labels as they are without compression. -/
structure Standard (d : List UInt8) (q : Question) : Prop where
  query : isResponse d = false
  opcode : opcode d = 0
  labels : Within 63 q.labels
  qtype : q.qtype = typeA
  qclass : q.qclass = classIn

/-- The datagrams that the task is there for. -/
def StandardQuery (d : List UInt8) : Prop := ∃ q more, OneQuestion d q more ∧ Standard d q

/-- **What is wanted of the task for a datagram**: the walk ends, just the standard queries are
    answered, what is sent is an answer, and everything else is ignored. -/
structure AnswersRight (ip : Bytes4) (rounds : Nat) (d : List UInt8) : Prop where
  ends : ∃ p, nameWalk d rounds headerSize = some p
  answered : (∃ tx, dnsTurn ip rounds (some d) = some (.sent tx)) ↔ StandardQuery d
  answer : ∀ tx, dnsTurn ip rounds (some d) = some (.sent tx) → Answers ip d tx
  ignored : ¬StandardQuery d → dnsTurn ip rounds (some d) = some .ignored

/-- **That is so exactly if the question that the walk goes over, if there is one, is one of a
    standard query.** -/
theorem dns_answers_right_iff (ip : Bytes4) {rounds : Nat} {d : List UInt8} (hd : d.length ≤ dnsMax)
    (hr : d.length < rounds) :
    AnswersRight ip rounds d ↔ ∀ q more, OneQuestion d q more → Standard d q := by
  constructor
  · intro h q more hq
    obtain ⟨q', more', hq', hstandard⟩ :=
      h.answered.mp ⟨_, (dnsTurn_sent_iff hd hr).mpr ⟨q, more, hq, rfl⟩⟩
    rw [hq.unique hq']
    exact hstandard
  · intro h
    have hiff : (∃ tx, dnsTurn ip rounds (some d) = some (.sent tx)) ↔ StandardQuery d := by
      constructor
      · intro ⟨tx, htx⟩
        obtain ⟨q, more, hq, -⟩ := (dnsTurn_sent_iff hd hr).mp htx
        exact ⟨q, more, hq, h q more hq⟩
      · intro ⟨q, more, hq, _⟩
        exact ⟨_, (dnsTurn_sent_iff hd hr).mpr ⟨q, more, hq, rfl⟩⟩
    refine ⟨nameWalk_ends (Nat.zero_lt_of_lt hr) (by omega), hiff, ?_, ?_⟩
    · intro tx htx
      obtain ⟨q, more, hq, rfl⟩ := (dnsTurn_sent_iff hd hr).mp htx
      exact answers_dnsAnswer hq
    · intro hnot
      exact dnsTurn_ignored hr fun tx htx => hnot (hiff.mp ⟨tx, htx⟩)

/-- `AP_IP` -/
def apIp : Bytes4 := ⟨[192, 168, 4, 1], rfl⟩

/-- A phone's standard query for records of one type for "a". -/
def phoneQuery (qtype : UInt8) : List UInt8 :=
  [0x12, 0x34, 0x01, 0x00, 0x00, 0x01, 0x00, 0x00, 0x00, 0x00, 0x00, 0x00,
   0x01, 97, 0x00, 0x00, qtype, 0x00, 0x01]

theorem within_phoneLabel {max : Nat} (h : 1 ≤ max) : Within max [[97]] :=
  within_cons.mpr ⟨⟨List.cons_ne_nil _ _, h⟩, fun _ hl => absurd hl List.not_mem_nil⟩

theorem oneQuestion_phoneQuery (qtype : UInt8) :
    OneQuestion (phoneQuery qtype) ⟨[[97]], ofBytes 0x00 qtype, classIn⟩ [] where
  one := by
    show ofBytes 0x00 0x01 = 1
    decide
  labels := within_phoneLabel (by decide)
  here := by
    have hclass : wordBytes classIn = [0x00, 0x01] := by decide
    unfold Question.bytes
    simp only [wordBytes_ofBytes, hclass]
    rfl
  room := by
    rw [Question.length_bytes]
    show 12 + 7 + 16 ≤ 512
    omega

/-- Type 1: it is answered, and rightly. -/
theorem dns_answers_right_iff_a : AnswersRight apIp 20 (phoneQuery 1) := by
  refine (dns_answers_right_iff apIp (by decide) (by decide)).mpr fun q more hq => ?_
  have hsame := hq.unique (oneQuestion_phoneQuery 1)
  subst hsame
  exact {
    query := by decide
    opcode := by decide
    labels := within_phoneLabel (by decide)
    qtype := by decide
    qclass := rfl }

/-- Type 28, AAAA: it is answered too, with an IPv4 address. -/
theorem aaaa_answered : ¬AnswersRight apIp 20 (phoneQuery 28) := by
  intro h
  have hsent : dnsTurn apIp 20 (some (phoneQuery 28)) =
    some (.sent (dnsAnswer apIp (phoneQuery 28) 19)) :=
    (dnsTurn_sent_iff (by decide) (by decide)).mpr ⟨_, _, oneQuestion_phoneQuery 28, rfl⟩
  obtain ⟨q, more, hq, hstandard⟩ := h.answered.mp ⟨_, hsent⟩
  have htype := hstandard.qtype
  rw [hq.unique (oneQuestion_phoneQuery 28)] at htype
  exact absurd htype (by decide)

end NutBluetti.Web
