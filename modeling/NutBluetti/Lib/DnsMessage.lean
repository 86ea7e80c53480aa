/-
  File:      NutBluetti/Lib/DnsMessage.lean
  Subject:   DNS MESSAGES AS BYTES: the header's numbers, names spelled label by label, questions
             and address records.

  * `word`, `setWord` -- a 16-bit number of the message, read and written in network byte order;
  * `encodeName` -- a name without compression; **`encodeName_prefix`** -- no name's bytes begin
    another's, so what stands at a place is one name at most;
  * `Question`, **`Question.bytes_prefix`** -- the same for questions;
  * `isResponse`, `opcode`, `aRecord` -- the kind of a message and an answer's record.
-/
import Mathlib.Data.List.Basic

namespace Dns

/-! ## 1. The numbers of a message -/

/-- The number that two bytes spell, the higher one first. -/
def ofBytes (hi lo : UInt8) : UInt16 := UInt16.ofNat (hi.toNat * 256 + lo.toNat)

/-- The two bytes of a number. -/
def wordBytes (v : UInt16) : List UInt8 := [UInt8.ofNat (v.toNat / 256), UInt8.ofNat v.toNat]

theorem ofBytes_wordBytes (v : UInt16) :
    ofBytes (UInt8.ofNat (v.toNat / 256)) (UInt8.ofNat v.toNat) = v := by
  have hv := v.toNat_lt
  apply UInt16.toNat_inj.mp
  unfold ofBytes
  rw [UInt16.toNat_ofNat', UInt8.toNat_ofNat', UInt8.toNat_ofNat']
  omega

theorem wordBytes_ofBytes (hi lo : UInt8) : wordBytes (ofBytes hi lo) = [hi, lo] := by
  have hhi := hi.toNat_lt
  have hlo := lo.toNat_lt
  have hn : (ofBytes hi lo).toNat = hi.toNat * 256 + lo.toNat := by
    unfold ofBytes
    rw [UInt16.toNat_ofNat', Nat.mod_eq_of_lt (by omega)]
  have h1 : UInt8.ofNat (hi.toNat * 256 + lo.toNat) = lo := by
    apply UInt8.toNat_inj.mp
    rw [UInt8.toNat_ofNat']
    omega
  have h2 : UInt8.ofNat ((hi.toNat * 256 + lo.toNat) / 256) = hi := by
    apply UInt8.toNat_inj.mp
    rw [UInt8.toNat_ofNat']
    omega
  unfold wordBytes
  rw [hn, h1, h2]

/-- Two numbers one after the other are read back, whatever follows. -/
theorem wordBytes_prefix {v v' : UInt16} {a b : List UInt8}
    (h : wordBytes v ++ a = wordBytes v' ++ b) :
    v = v' ∧ a = b := by
  obtain ⟨hbytes, hrest⟩ := List.append_inj h rfl
  obtain ⟨hhi, htail⟩ := List.cons_eq_cons.mp hbytes
  obtain ⟨hlo, -⟩ := List.cons_eq_cons.mp htail
  refine ⟨?_, hrest⟩
  rw [← ofBytes_wordBytes v, ← ofBytes_wordBytes v', hhi, hlo]

/-- The number at byte `i` of a message. -/
def word (d : List UInt8) (i : Nat) : UInt16 := ofBytes (d.getD i 0) (d.getD (i + 1) 0)

/-- The message with that number there. -/
def setWord (d : List UInt8) (i : Nat) (v : UInt16) : List UInt8 :=
  (d.set i (UInt8.ofNat (v.toNat / 256))).set (i + 1) (UInt8.ofNat v.toNat)

@[simp] theorem length_setWord (d : List UInt8) (i : Nat) (v : UInt16) :
    (setWord d i v).length = d.length := by
  unfold setWord
  rw [List.length_set, List.length_set]

theorem word_setWord {d : List UInt8} {i : Nat} (h : i + 2 ≤ d.length) (v : UInt16) :
    word (setWord d i v) i = v := by
  unfold word setWord
  rw [List.getD_eq_getElem?_getD, List.getD_eq_getElem?_getD, List.getElem?_set_ne (by omega),
    List.getElem?_set_self (by omega), List.getElem?_set_self (by rw [List.length_set]; omega)]
  exact ofBytes_wordBytes v

theorem word_setWord_ne {d : List UInt8} {i j : Nat} (h : i + 2 ≤ j ∨ j + 2 ≤ i) (v : UInt16) :
    word (setWord d i v) j = word d j := by
  unfold word setWord
  simp only [List.getD_eq_getElem?_getD]
  rw [List.getElem?_set_ne (by omega), List.getElem?_set_ne (by omega),
    List.getElem?_set_ne (by omega), List.getElem?_set_ne (by omega)]

theorem drop_setWord {d : List UInt8} {i k : Nat} (h : i + 2 ≤ k) (v : UInt16) :
    (setWord d i v).drop k = d.drop k := by
  unfold setWord
  rw [List.drop_set_of_lt (by omega), List.drop_set_of_lt (by omega)]

theorem word_append {d : List UInt8} {i : Nat} (h : i + 2 ≤ d.length) (e : List UInt8) :
    word (d ++ e) i = word d i := by
  unfold word
  simp only [List.getD_eq_getElem?_getD]
  rw [List.getElem?_append_left (by omega), List.getElem?_append_left (by omega)]

theorem word_take {d : List UInt8} {i k : Nat} (h : i + 2 ≤ k) : word (d.take k) i = word d i := by
  unfold word
  simp only [List.getD_eq_getElem?_getD]
  rw [List.getElem?_take_of_lt (by omega), List.getElem?_take_of_lt (by omega)]

/-! ## 2. The header -/

/-- The bytes before the first question. -/
def headerSize : Nat := 12

def ident (d : List UInt8) : UInt16 := word d 0

def flags (d : List UInt8) : UInt16 := word d 2

def qdCount (d : List UInt8) : UInt16 := word d 4

def anCount (d : List UInt8) : UInt16 := word d 6

def nsCount (d : List UInt8) : UInt16 := word d 8

def arCount (d : List UInt8) : UInt16 := word d 10

/-- The QR bit. -/
def isResponse (d : List UInt8) : Bool := decide (0x8000 ≤ flags d)

/-- The kind of query; 0 is the standard one. -/
def opcode (d : List UInt8) : UInt16 := flags d >>> 11 &&& 0xF

/-! ## 3. Names -/

/-- A name without compression: each label after its length, and a length of 0. -/
def encodeName : List (List UInt8) → List UInt8
  | [] => [0]
  | l :: ls => UInt8.ofNat l.length :: (l ++ encodeName ls)

/-- Labels of one byte at least and of `max` at most. -/
def Within (max : Nat) (ls : List (List UInt8)) : Prop := ∀ l ∈ ls, l ≠ [] ∧ l.length ≤ max

theorem Within.mono {m n : Nat} (hmn : m ≤ n) {ls : List (List UInt8)} (h : Within m ls) :
    Within n ls :=
  fun l hl => ⟨(h l hl).1, Nat.le_trans (h l hl).2 hmn⟩

theorem within_cons {max : Nat} {l : List UInt8} {ls : List (List UInt8)} :
    Within max (l :: ls) ↔ (l ≠ [] ∧ l.length ≤ max) ∧ Within max ls := List.forall_mem_cons

/-- The length byte of a label tells its length. -/
theorem toNat_length {l : List UInt8} (h : l.length ≤ 255) :
    (UInt8.ofNat l.length).toNat = l.length := by
  rw [UInt8.toNat_ofNat']
  omega

theorem length_ne_zero {l : List UInt8} (h : l ≠ [] ∧ l.length ≤ 255) :
    UInt8.ofNat l.length ≠ 0 := by
  intro h0
  have hlen := toNat_length h.2
  rw [h0] at hlen
  exact h.1 (List.eq_nil_of_length_eq_zero hlen.symm)

/-- **No name begins another**: two names with something behind them are the same bytes only if they
    are the same name, with the same behind. -/
theorem encodeName_prefix {ls ls' : List (List UInt8)} (h : Within 255 ls) (h' : Within 255 ls')
    {a b : List UInt8} (heq : encodeName ls ++ a = encodeName ls' ++ b) : ls = ls' ∧ a = b := by
  induction ls generalizing ls' with
  | nil =>
      cases ls' with
      | nil => exact ⟨rfl, List.append_cancel_left heq⟩
      | cons l' ls' =>
          obtain ⟨h0, -⟩ := List.cons_eq_cons.mp heq
          exact absurd h0.symm (length_ne_zero (within_cons.mp h').1)
  | cons l ls ih =>
      obtain ⟨hl, hls⟩ := within_cons.mp h
      cases ls' with
      | nil =>
          obtain ⟨h0, -⟩ := List.cons_eq_cons.mp heq
          exact absurd h0 (length_ne_zero hl)
      | cons l' ls' =>
          obtain ⟨hl', hls'⟩ := within_cons.mp h'
          obtain ⟨hlen, hrest⟩ := List.cons_eq_cons.mp heq
          have hlength : l.length = l'.length := by
            rw [← toNat_length hl.2, hlen, toNat_length hl'.2]
          replace hrest : l ++ (encodeName ls ++ a) = l' ++ (encodeName ls' ++ b) := by
            rw [← List.append_assoc, ← List.append_assoc]
            exact hrest
          obtain ⟨hlabel, hnext⟩ := List.append_inj hrest hlength
          obtain ⟨hsame, hbehind⟩ := ih hls hls' hnext
          exact ⟨by rw [hlabel, hsame], hbehind⟩

/-! ## 4. Questions and answers -/

/-- The type of an IPv4 address record. -/
def typeA : UInt16 := 1

/-- The class of the Internet. -/
def classIn : UInt16 := 1

/-- What is asked. -/
structure Question where
  labels : List (List UInt8)
  qtype : UInt16
  qclass : UInt16
  deriving DecidableEq

def Question.bytes (q : Question) : List UInt8 :=
  encodeName q.labels ++ (wordBytes q.qtype ++ wordBytes q.qclass)

theorem Question.length_bytes (q : Question) :
    q.bytes.length = (encodeName q.labels).length + 4 := by
  unfold bytes
  rw [List.length_append]
  rfl

/-- **No question begins another.** -/
theorem Question.bytes_prefix {q q' : Question} (h : Within 255 q.labels)
    (h' : Within 255 q'.labels)
    {a b : List UInt8} (heq : q.bytes ++ a = q'.bytes ++ b) : q = q' := by
  unfold bytes at heq
  simp only [List.append_assoc] at heq
  obtain ⟨hlabels, hrest⟩ := encodeName_prefix h h' heq
  obtain ⟨htype, hrest⟩ := wordBytes_prefix hrest
  obtain ⟨hclass, -⟩ := wordBytes_prefix hrest
  cases q
  cases q'
  simp only at hlabels htype hclass
  rw [hlabels, htype, hclass]

/-- Four bytes: an IPv4 address, or a time to live. -/
abbrev Bytes4 := { b : List UInt8 // b.length = 4 }

/-- **An address record** for the name of the first question, which it names by a pointer. -/
def aRecord (ttl ip : Bytes4) : List UInt8 :=
  wordBytes 0xC00C ++ wordBytes typeA ++ wordBytes classIn ++ ttl.1 ++ wordBytes 4 ++ ip.1

theorem length_aRecord (ttl ip : Bytes4) : (aRecord ttl ip).length = 16 := by
  unfold aRecord
  simp only [List.length_append, ttl.2, ip.2]
  rfl

end Dns
