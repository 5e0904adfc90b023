import Coire.Dict
import Coire.FixedDecimal
import Coire.Run

/-!
# The receipt journal of an upgrade

`UpgradeReceiptJournal`: the receipts of one upgrade operation, each in a file that is
named by its sequence number and linked to the file before it by a digest. Whoever reads
the journal checks all of it: that nothing else is in the directory, that there are no
more than 4096 receipts, that they are numbered without a gap, that the links hold and
that the acknowledgment is of receipts that are there.

The writer, `append`, checks that the receipt continues the numbering and that its file
is small enough. The bound on the number of receipts only the reader knows: the 4097th
receipt is accepted, and nothing is readable any more (`full_journal_unreadable`). Up to
there the journal is what it should be (`receipt_journal_kept`). How a document is
written and read, and the digests, are a parameter: `Wire`.
-/

namespace Upgrades

inductive UpgradePhase
  | accepted | preflight | fencing | draining | staged | smokeBefore | migrating
  | activating | verifying | qualifying | committing | restoring
  | verifyingSource | recoveryRequired | succeeded | failedUnchanged
  | cancelledUnchanged | rolledBack
  deriving DecidableEq

inductive Outcome
  | intent | complete | failed | unknown
  deriving DecidableEq

inductive Restoration
  | notRequired | pending | verified | failed
  deriving DecidableEq

structure UpgradeReceipt where
  jobId : String
  generation : ℕ
  sequence : ℕ
  effectId : String
  phase : UpgradePhase
  occurredAt : ℤ
  outcome : Outcome
  observedSha256 : Option String
  reason : Option String
  evidence : String
  restoration : Restoration
  sequence_bounds : 1 ≤ sequence ∧ sequence ≤ 2 ^ 63 - 1
  deriving DecidableEq

structure UpgradeJournalEntry where
  receipt : UpgradeReceipt
  previousSha256 : Option String
  resourceIdentity : Option String
  deriving DecidableEq

structure UpgradeReceiptAck where
  jobId : String
  generation : ℕ
  sequence : ℕ
  deriving DecidableEq

structure UpgradeExecutionPlan where
  jobId : String
  generation : ℕ
  authoritySha256 : String
  deriving DecidableEq

/-- **Documents as bytes**: how they are written and read back, their sizes, and
the digests. -/
structure Wire where
  Doc : Type
  size : Doc → ℕ
  lock : Doc
  plan : UpgradeExecutionPlan → Doc
  entry : UpgradeJournalEntry → Doc
  ack : UpgradeReceiptAck → Doc
  readPlan : Doc → Option UpgradeExecutionPlan
  readEntry : Doc → Option UpgradeJournalEntry
  readAck : Doc → Option UpgradeReceiptAck
  readPlan_plan : ∀ p, readPlan (plan p) = some p
  readEntry_entry : ∀ e, readEntry (entry e) = some e
  readAck_ack : ∀ a, readAck (ack a) = some a
  receiptSha256 : UpgradeReceipt → String
  entrySha256 : UpgradeJournalEntry → String

inductive UpgradeError
  | conflict (message : String)
  | unavailable (message : String)
  | validation
  deriving DecidableEq

/-! ## The private store -/

def maxDocumentBytes : ℕ := 512 * 1024

/-- `[A-Za-z0-9][A-Za-z0-9._-]{0,127}`. -/
def validKey (key : String) : Bool :=
  match key.toList with
  | [] => false
  | c :: cs => c.isAlphanum && cs.length ≤ 127
      && cs.all fun d => d.isAlphanum || d ∈ ['.', '_', '-']

section Store

variable (W : Wire)

/-- The directory of a `PrivateUpgradeStore`, in the order its files were
created. -/
abbrev Files := Dict String W.Doc

def read {α : Type} (files : Files W) (key : String)
    (decode : W.Doc → Option α) : Except UpgradeError (Option α) :=
  if !validKey key then .error (.conflict "Upgrade data key is invalid")
  else match files.get? key with
    | none => .ok none
    | some doc =>
      if maxDocumentBytes < W.size doc then
        .error (.unavailable "Upgrade data ownership or size differs")
      else match decode doc with
        | some value => .ok (some value)
        | none => .error (.unavailable "Upgrade data is corrupt")

def write (files : Files W) (key : String) (doc : W.Doc) (replace : Bool) :
    Except UpgradeError (Files W) :=
  if !validKey key then .error (.conflict "Upgrade data key is invalid")
  else if maxDocumentBytes < W.size doc then
    .error (.unavailable "Upgrade data exceeds its bound")
  else if !replace && (files.get? key).isSome then
    .error (.conflict "Upgrade data already exists")
  else .ok (files.set key doc)

end Store

/-! ## The journal -/

structure UpgradeReceiptJournal (W : Wire) where
  plan : UpgradeExecutionPlan
  files : Files W

/-- `UpgradeReceiptJournal.key`: `receipt-`, the sequence number in twenty digits,
`.json`. -/
def key (sequence : ℕ) : String :=
  FixedDecimal.numbered "receipt-".toList ".json".toList 20 sequence

def isReceiptName (name : String) : Bool :=
  name.toList.length = 33 && name.toList.take 8 = "receipt-".toList
    && ((name.toList.drop 8).take 20).all Char.isDigit
    && name.toList.drop 28 = ".json".toList

def ownFiles : List String := ["journal.lock", "plan.json", "ack.json"]

namespace UpgradeReceiptJournal

variable {W : Wire} (J : UpgradeReceiptJournal W)

def names : List String :=
  (J.files.items.map Prod.fst).filter fun name => name ∉ ownFiles

/-- The loop of `_entries`: the receipts in the order of their names, each of
which must continue the chain. -/
def chain : List String → ℕ → Option String →
    Except UpgradeError (List UpgradeJournalEntry)
  | [], _, _ => .ok []
  | name :: rest, sequence, previous =>
    match read W J.files name W.readEntry with
    | .error err => .error err
    | .ok none =>
      .error (.unavailable "Upgrade journal receipt chain differs")
    | .ok (some entry) =>
      if (entry.receipt.jobId, entry.receipt.generation, entry.receipt.sequence,
            entry.previousSha256, name)
          ≠ (J.plan.jobId, J.plan.generation, sequence, previous, key sequence)
      then .error (.unavailable "Upgrade journal receipt chain differs")
      else match chain rest (sequence + 1) (some (W.entrySha256 entry)) with
        | .error err => .error err
        | .ok entries => .ok (entry :: entries)

def acknowledges (entries : List UpgradeJournalEntry) (ack : UpgradeReceiptAck) :
    Bool :=
  ack.jobId = J.plan.jobId ∧ ack.generation = J.plan.generation
    ∧ ack.sequence ≤ entries.length

/-- **`_entries`**: what every call reads, and checks, first. -/
def entries : Except UpgradeError (List UpgradeJournalEntry) :=
  if J.names.any fun name => !isReceiptName name then
    .error (.unavailable "Upgrade journal contains unreconciled data")
  else if 4096 < J.names.length then
    .error (.unavailable "Upgrade journal exceeds its receipt bound")
  else match J.chain (J.names.insertionSort FixedDecimal.NameLe) 1 none with
    | .error err => .error err
    | .ok entries =>
      match read W J.files "ack.json" W.readAck with
      | .error err => .error err
      | .ok none => .ok entries
      | .ok (some ack) =>
        if !J.acknowledges entries ack then .error (.unavailable
          "Upgrade journal acknowledgment differs from retained evidence")
        else .ok entries

def append (receipt : UpgradeReceipt) (resourceIdentity : Option String) :
    UpgradeReceiptJournal W × Except UpgradeError Bool :=
  if (receipt.jobId, receipt.generation) ≠ (J.plan.jobId, J.plan.generation) then
    (J, .error (.conflict "Receipt belongs to another local owner"))
  else match J.entries with
    | .error err => (J, .error err)
    | .ok entries =>
      match entries[receipt.sequence - 1]? with
      | some existing =>
        if W.receiptSha256 existing.receipt ≠ W.receiptSha256 receipt
            ∨ existing.resourceIdentity ≠ resourceIdentity then
          (J, .error (.conflict "Receipt replay contains different evidence"))
        else (J, .ok false)
      | none =>
        if receipt.sequence ≠ entries.length + 1 then
          (J, .error (.conflict "Local receipt sequence is not contiguous"))
        else if resourceIdentity.any fun x => 256 < x.length then
          (J, .error .validation)
        else
          let entry : UpgradeJournalEntry :=
            ⟨receipt, entries.getLast?.map W.entrySha256, resourceIdentity⟩
          match write W J.files (key receipt.sequence) (W.entry entry) false with
          | .error err => (J, .error err)
          | .ok files => ({ J with files := files }, .ok true)

/-- `page`: at most 32 receipts after a sequence number. -/
def page (after : ℤ) : Except UpgradeError (List UpgradeReceipt) :=
  if after < 0 then .error (.conflict "Receipt replay cursor is invalid")
  else match J.entries with
    | .error err => .error err
    | .ok entries =>
      .ok (((entries.drop after.toNat).take 32).map (·.receipt))

def latest : Except UpgradeError (Option UpgradeReceipt) :=
  match J.entries with
  | .error err => .error err
  | .ok entries => .ok (entries.getLast?.map (·.receipt))

def acknowledgedSequence : Except UpgradeError ℕ :=
  match J.entries with
  | .error err => .error err
  | .ok _ =>
    match read W J.files "ack.json" W.readAck with
    | .error err => .error err
    | .ok none => .ok 0
    | .ok (some ack) => .ok ack.sequence

def acknowledge (ack : UpgradeReceiptAck) :
    UpgradeReceiptJournal W × Except UpgradeError Unit :=
  if (ack.jobId, ack.generation) ≠ (J.plan.jobId, J.plan.generation) then
    (J, .error (.conflict "Durable acknowledgment belongs to another owner"))
  else match J.entries with
    | .error err => (J, .error err)
    | .ok entries =>
      match read W J.files "ack.json" W.readAck with
      | .error err => (J, .error err)
      | .ok previous =>
        if entries.length < ack.sequence
            ∨ previous.any fun p => ack.sequence < p.sequence then
          (J, .error (.conflict "Durable receipt acknowledgment differs"))
        else match write W J.files "ack.json" (W.ack ack) true with
          | .error err => (J, .error err)
          | .ok files => ({ J with files := files }, .ok ())

/-- Paging from a sequence number on, 32 at a time, until a page is empty. -/
def pages : ℕ → ℕ → List UpgradeReceipt
  | 0, _ => []
  | fuel + 1, after =>
    match J.page after with
    | .ok (r :: rs) => r :: rs ++ pages fuel (after + 32)
    | _ => []

end UpgradeReceiptJournal

/-- The constructor, over a directory that may be an earlier journal's. -/
def openJournal (W : Wire) (files : Files W) (plan : UpgradeExecutionPlan) :
    Except UpgradeError (UpgradeReceiptJournal W) :=
  -- taking the lock creates its file
  let files := files.setDefault "journal.lock" W.lock
  match read W files "plan.json" W.readPlan with
  | .error err => .error err
  | .ok none =>
    match write W files "plan.json" (W.plan plan) false with
    | .error err => .error err
    | .ok files =>
      let J : UpgradeReceiptJournal W := ⟨plan, files⟩
      match J.entries with
      | .error err => .error err
      | .ok _ => .ok J
  | .ok (some existing) =>
    if existing.authoritySha256 ≠ plan.authoritySha256 then .error
      (.conflict "Local journal belongs to different accepted authority")
    else
      let J : UpgradeReceiptJournal W := ⟨existing, files⟩
      match J.entries with
      | .error err => .error err
      | .ok _ => .ok J

inductive Call
  | append (receipt : UpgradeReceipt) (resourceIdentity : Option String)
  | acknowledge (ack : UpgradeReceiptAck)
  | page (after : ℤ)
  | latest
  | acknowledgedSequence
  /-- The owner restarts and opens the journal again. -/
  | reopen (plan : UpgradeExecutionPlan)

/-- A journal, and the receipts whose append returned `True`. -/
structure History (W : Wire) where
  journal : UpgradeReceiptJournal W
  appended : List UpgradeReceipt

def step {W : Wire} (s : History W) : Call → History W
  | .append receipt resourceIdentity =>
    let r := s.journal.append receipt resourceIdentity
    ⟨r.1, if r.2 = .ok true then s.appended ++ [receipt] else s.appended⟩
  | .acknowledge ack => { s with journal := (s.journal.acknowledge ack).1 }
  | .reopen plan =>
    match openJournal W s.journal.files plan with
    | .ok J => { s with journal := J }
    | .error _ => s
  | .page _ | .latest | .acknowledgedSequence => s

def Kept {W : Wire} (s : History W) : Prop :=
  ∃ es, s.journal.entries = .ok es ∧ es.map (·.receipt) = s.appended
    ∧ (∀ i e, es[i]? = some e → e.receipt.sequence = i + 1
      ∧ e.previousSha256 = (es.take i).getLast?.map W.entrySha256)
    ∧ ∀ fuel, es.length / 32 < fuel → s.journal.pages fuel 0 = s.appended

def Bounded {W : Wire} (_ : History W) : Call → Prop
  | .append receipt _ => receipt.sequence ≤ 4096
  | _ => True

instance {W : Wire} (s : History W) : ∀ c, Decidable (Bounded s c)
  | .append receipt _ => inferInstanceAs (Decidable (receipt.sequence ≤ 4096))
  | .acknowledge _ | .page _ | .latest | .acknowledgedSequence | .reopen _ =>
    inferInstanceAs (Decidable True)

/-! ## The names of the receipts -/

theorem toList_key (n : ℕ) : (key n).toList
    = 'r' :: ("eceipt-".toList ++ FixedDecimal.digits 20 n ++ ".json".toList) :=
  FixedDecimal.toList_numbered

theorem validKey_key (n : ℕ) : validKey (key n) = true := by
  have hdigit : ∀ c ∈ FixedDecimal.digits 20 n,
      (c.isAlphanum || decide (c ∈ ['.', '_', '-'])) = true := by
    intro c hc
    have := FixedDecimal.isDigit_of_mem_digits hc
    simp [Char.isAlphanum, this]
  unfold validKey
  rw [toList_key]
  simp only [List.length_append, FixedDecimal.length_digits, List.all_append,
    List.all_eq_true.mpr hdigit]
  decide

theorem isReceiptName_key (n : ℕ) : isReceiptName (key n) = true := by
  have hlen := FixedDecimal.length_digits 20 n
  have hdigits : ((FixedDecimal.digits 20 n).all Char.isDigit) = true :=
    List.all_eq_true.mpr fun c hc => FixedDecimal.isDigit_of_mem_digits hc
  have hlist : (key n).toList
      = "receipt-".toList ++ (FixedDecimal.digits 20 n ++ ".json".toList) := by
    rw [toList_key, List.append_assoc]
    rfl
  have hdrop : (key n).toList.drop 28 = ((key n).toList.drop 8).drop 20 := by
    rw [List.drop_drop]
  have hprefix : "receipt-".toList.length = 8 := by decide
  unfold isReceiptName
  rw [hdrop, hlist, List.take_left' hprefix, List.drop_left' hprefix,
    List.take_left' hlen, List.drop_left' hlen, hdigits, List.length_append,
    List.length_append, hlen]
  decide

theorem key_notMem_ownFiles (n : ℕ) : key n ∉ ownFiles := by
  intro h
  have hown : ∀ x ∈ ownFiles, isReceiptName x = false := by decide
  have := hown _ h
  rw [isReceiptName_key] at this
  cases this

theorem key_injective {m n : ℕ} (hm : m < 10 ^ 20) (hn : n < 10 ^ 20)
    (h : key m = key n) : m = n :=
  FixedDecimal.numbered_injective hm hn h

/-! ## The shape of the directory -/

section

variable {W : Wire} {J : UpgradeReceiptJournal W}
  {es : List UpgradeJournalEntry}

/-- **A chain of entries** of the plan's operation, numbered from `n` and linked
to a digest before it. -/
def Chained (W : Wire) (plan : UpgradeExecutionPlan) :
    ℕ → Option String → List UpgradeJournalEntry → Prop
  | _, _, [] => True
  | n, previous, e :: es =>
    (e.receipt.jobId = plan.jobId ∧ e.receipt.generation = plan.generation
      ∧ e.receipt.sequence = n ∧ e.previousSha256 = previous)
    ∧ Chained W plan (n + 1) (some (W.entrySha256 e)) es

/-- **The directory holds these entries**, a plan and perhaps an acknowledgment. -/
structure Shape (J : UpgradeReceiptJournal W) (es : List UpgradeJournalEntry) :
    Prop where
  short : es.length ≤ 4097
  names : J.names = (List.range' 1 es.length).map key
  docs : ∀ {i e}, es[i]? = some e → J.files.get? (key (i + 1)) = some (W.entry e)
    ∧ W.size (W.entry e) ≤ maxDocumentBytes
  chained : Chained W J.plan 1 none es
  plan : J.files.get? "plan.json" = some (W.plan J.plan)
    ∧ W.size (W.plan J.plan) ≤ maxDocumentBytes
  lock : (J.files.get? "journal.lock").isSome
  ack : ∀ {doc}, J.files.get? "ack.json" = some doc → ∃ ack, doc = W.ack ack
    ∧ W.size doc ≤ maxDocumentBytes ∧ J.acknowledges es ack

/-! ### Reading -/

variable {files : Files W} {name : String} {plan : UpgradeExecutionPlan} {n : ℕ}

theorem read_of_get? {α : Type} {decode : W.Doc → Option α} {doc : W.Doc} {x : α}
    (hkey : validKey name = true) (h : files.get? name = some doc)
    (hsize : W.size doc ≤ maxDocumentBytes) (hx : decode doc = some x) :
    read W files name decode = .ok (some x) := by
  unfold read
  rw [hkey, h]
  simp only [Bool.not_true, Bool.false_eq_true, ↓reduceIte]
  rw [if_neg (Nat.not_lt.mpr hsize), hx]

variable {previous : Option String} {e : UpgradeJournalEntry}

theorem chain_eq (hdocs : ∀ {i e}, es[i]? = some e →
      J.files.get? (key (n + i)) = some (W.entry e)
        ∧ W.size (W.entry e) ≤ maxDocumentBytes)
    (hchained : Chained W J.plan n previous es) :
    J.chain ((List.range' n es.length).map key) n previous = .ok es := by
  induction es generalizing n previous with
  | nil => rfl
  | cons e es ih =>
    obtain ⟨⟨hjob, hgen, hseq, hprev⟩, hrest⟩ := hchained
    obtain ⟨hget, hsize⟩ := hdocs (i := 0) rfl
    have htail := ih (n := n + 1) (fun {i e'} hi => by
      have := hdocs (i := i + 1) hi
      rwa [show n + (i + 1) = n + 1 + i by omega] at this) hrest
    rw [List.length_cons, List.range'_succ, List.map_cons, UpgradeReceiptJournal.chain,
      read_of_get? (validKey_key n) hget hsize (W.readEntry_entry e)]
    simp only [hjob, hgen, hseq, hprev, ne_eq, not_true_eq_false, ↓reduceIte]
    rw [htail]

theorem Shape.entries_aux (h : Shape J es) :
    J.names.any (fun name => !isReceiptName name) = false ∧ J.names.length = es.length
      ∧ J.chain (J.names.insertionSort FixedDecimal.NameLe) 1 none = .ok es := by
  have hsorted : ((List.range' 1 es.length).map key).Pairwise FixedDecimal.NameLe :=
    FixedDecimal.pairwise_numbered 1 es.length (by have := h.short; omega)
  rw [h.names, hsorted.insertionSort_eq]
  refine ⟨?_, ?_, chain_eq (fun {i e} hi => ?_) h.chained⟩
  · rw [List.any_eq_false]
    intro name hname
    obtain ⟨n, -, rfl⟩ := List.mem_map.mp hname
    rw [isReceiptName_key]
    exact Bool.false_ne_true
  · rw [List.length_map, List.length_range']
  · rw [Nat.add_comm]
    exact h.docs hi

theorem Shape.entries_eq (h : Shape J es) (hbound : es.length ≤ 4096) :
    J.entries = .ok es := by
  obtain ⟨hnames, hlen, hchain⟩ := h.entries_aux
  unfold UpgradeReceiptJournal.entries
  rw [hnames, hlen, hchain]
  simp only [Bool.false_eq_true, ↓reduceIte]
  rw [if_neg (Nat.not_lt.mpr hbound)]
  cases hack : J.files.get? "ack.json" with
  | none =>
    have : read W J.files "ack.json" W.readAck = .ok none := by
      unfold read
      rw [hack]
      rfl
    rw [this]
  | some doc =>
    obtain ⟨ack, rfl, hsize, hok⟩ := h.ack hack
    rw [read_of_get? (by decide) hack hsize (W.readAck_ack ack)]
    simp only [hok, Bool.not_true, Bool.false_eq_true, ↓reduceIte]

theorem Shape.entries_full (h : Shape J es) (hbound : 4096 < es.length) : J.entries
      = .error (.unavailable "Upgrade journal exceeds its receipt bound") := by
  obtain ⟨hnames, hlen, -⟩ := h.entries_aux
  unfold UpgradeReceiptJournal.entries
  rw [hnames, hlen, if_pos hbound]
  rfl

/-! ### Writing -/

theorem ne_key (h : name ∈ ownFiles) (n : ℕ) : name ≠ key n :=
  fun he => key_notMem_ownFiles n (he ▸ h)

theorem Shape.get?_key (h : Shape J es) :
    J.files.get? (key (es.length + 1)) = none := by
  cases hget : J.files.get? (key (es.length + 1)) with
  | none => rfl
  | some doc =>
    have hmem : key (es.length + 1) ∈ J.names :=
      List.mem_filter.mpr ⟨Dict.mem_keys.mpr ⟨doc, hget⟩,
        decide_eq_true (key_notMem_ownFiles _)⟩
    rw [h.names] at hmem
    obtain ⟨n, hn, he⟩ := List.mem_map.mp hmem
    rw [List.mem_range'_1] at hn
    have hshort := h.short
    have := key_injective (by omega) (by omega) he
    omega

theorem names_set_receipt (doc : W.Doc)
    (h : files.get? (key n) = none) (plan : UpgradeExecutionPlan) :
    UpgradeReceiptJournal.names ⟨plan, files.set (key n) doc⟩
      = UpgradeReceiptJournal.names ⟨plan, files⟩ ++ [key n] := by
  unfold UpgradeReceiptJournal.names
  rw [Dict.keys_set_of_none doc h, List.filter_append,
    List.filter_singleton, decide_eq_true (key_notMem_ownFiles n), cond_true]

theorem names_set_own (doc : W.Doc)
    (h : name ∈ ownFiles) (plan : UpgradeExecutionPlan) :
    UpgradeReceiptJournal.names ⟨plan, files.set name doc⟩
      = UpgradeReceiptJournal.names ⟨plan, files⟩ := by
  unfold UpgradeReceiptJournal.names
  cases hget : files.get? name with
  | none =>
    rw [Dict.keys_set_of_none doc hget, List.filter_append,
      List.filter_singleton, decide_eq_false (not_not.mpr h), cond_false,
      List.append_nil]
  | some u => rw [Dict.keys_set_of_some doc hget]

theorem chained_append
    (hes : Chained W plan n previous es) (hjob : e.receipt.jobId = plan.jobId)
    (hgen : e.receipt.generation = plan.generation)
    (hseq : e.receipt.sequence = n + es.length)
    (hprev : e.previousSha256 = (es.getLast?.map W.entrySha256).or previous) :
    Chained W plan n previous (es ++ [e]) := by
  induction es generalizing n previous with
  | nil => exact ⟨⟨hjob, hgen, hseq, hprev⟩, trivial⟩
  | cons a es ih =>
    refine ⟨hes.1, ih hes.2 ?_ ?_⟩
    · rw [hseq, List.length_cons]
      omega
    · rw [hprev, List.getLast?_cons]
      cases es.getLast? <;> rfl

theorem chained_get {i : ℕ}
    (hes : Chained W plan n previous es) (hi : es[i]? = some e) :
    e.receipt.sequence = n + i ∧ e.previousSha256
      = ((es.take i).getLast?.map W.entrySha256).or previous := by
  induction es generalizing n previous i with
  | nil => cases hi
  | cons a es ih =>
    cases i with
    | zero =>
      cases hi
      exact ⟨hes.1.2.2.1, hes.1.2.2.2⟩
    | succ i =>
      obtain ⟨hseq, hprev⟩ := ih hes.2 hi
      refine ⟨by omega, ?_⟩
      rw [hprev, List.take_succ_cons, List.getLast?_cons]
      cases (es.take i).getLast? <;> rfl

theorem Shape.append (h : Shape J es) (hbound : es.length ≤ 4096)
    (hjob : e.receipt.jobId = J.plan.jobId)
    (hgen : e.receipt.generation = J.plan.generation)
    (hseq : e.receipt.sequence = es.length + 1)
    (hprev : e.previousSha256 = es.getLast?.map W.entrySha256)
    (hsize : W.size (W.entry e) ≤ maxDocumentBytes) :
    Shape ⟨J.plan, J.files.set (key (es.length + 1)) (W.entry e)⟩ (es ++ [e]) := by
  have hlen : (es ++ [e]).length = es.length + 1 := List.length_append
  have hown : ∀ {name}, name ∈ ownFiles →
      (J.files.set (key (es.length + 1)) (W.entry e)).get? name = J.files.get? name :=
    fun hname => Dict.get?_set_ne _ (ne_key hname _) _
  refine ⟨by omega, ?_, fun {i x} hi => ?_, ?_, ?_, ?_, fun {doc} hdoc => ?_⟩
  · rw [names_set_receipt _ h.get?_key, hlen, List.range'_1_concat,
      List.map_append, Nat.add_comm 1, ← h.names]
    rfl
  · rw [List.getElem?_append] at hi
    split at hi
    · rename_i hlt
      have hshort := h.short
      refine ⟨?_, (h.docs hi).2⟩
      rw [Dict.get?_set_ne _ fun he => ?_]
      · exact (h.docs hi).1
      · have := key_injective (by omega) (by omega) he
        omega
    · rw [List.getElem?_singleton] at hi
      split at hi
      · grind
      · cases hi
  · refine chained_append h.chained hjob hgen (by omega) ?_
    rw [hprev, Option.or_none]
  · rw [hown (by decide)]
    exact h.plan
  · rw [hown (by decide)]
    exact h.lock
  · rw [hown (by decide)] at hdoc
    obtain ⟨ack, hack, hs, hok⟩ := h.ack hdoc
    refine ⟨ack, hack, hs, ?_⟩
    unfold UpgradeReceiptJournal.acknowledges at hok ⊢
    rw [decide_eq_true_iff] at hok ⊢
    exact ⟨hok.1, hok.2.1, by omega⟩

theorem Shape.acknowledge (h : Shape J es) {ack : UpgradeReceiptAck}
    (hok : J.acknowledges es ack) (hsize : W.size (W.ack ack) ≤ maxDocumentBytes) :
    Shape ⟨J.plan, J.files.set "ack.json" (W.ack ack)⟩ es := by
  refine ⟨h.short, ?_, fun hi => ?_, h.chained, ?_, ?_, fun {doc} hdoc => ?_⟩
  · rw [names_set_own _ (by decide)]
    exact h.names
  · rw [Dict.get?_set_ne _ (ne_key (by decide) _).symm]
    exact h.docs hi
  · grind [cases Shape]
  · grind [cases Shape]
  · rw [Dict.get?_set_self] at hdoc
    cases hdoc
    exact ⟨ack, rfl, hsize, hok⟩

/-! ## What the calls keep -/

theorem write_ok {files' : Files W} {doc : W.Doc}
    {replace : Bool} (h : write W files name doc replace = .ok files') :
    files' = files.set name doc ∧ W.size doc ≤ maxDocumentBytes := by
  unfold write at h
  split_ifs at h with hkey hsize hexists
  exact ⟨(Except.ok.inj h).symm, Nat.not_lt.mp hsize⟩

/-- **What `append` does**: nothing, unless it returns `True`; then the receipt is
the next of the journal. -/
theorem Shape.append_spec (h : Shape J es) (hbound : es.length ≤ 4096)
    (receipt : UpgradeReceipt) (resourceIdentity : Option String) :
    ((J.append receipt resourceIdentity).1 = J
      ∧ (J.append receipt resourceIdentity).2 ≠ .ok true)
    ∨ ((J.append receipt resourceIdentity).2 = .ok true
      ∧ receipt.sequence = es.length + 1
      ∧ ∃ e, e.receipt = receipt
        ∧ Shape (J.append receipt resourceIdentity).1 (es ++ [e])) := by
  unfold UpgradeReceiptJournal.append
  split
  · exact .inl ⟨rfl, nofun⟩
  rename_i howner
  rw [ne_eq, not_not, Prod.mk.injEq] at howner
  rw [h.entries_eq hbound]
  dsimp only
  split
  · split
    · exact .inl ⟨rfl, nofun⟩
    · exact .inl ⟨rfl, nofun⟩
  split
  · exact .inl ⟨rfl, nofun⟩
  rename_i hseq
  rw [ne_eq, not_not] at hseq
  split
  · exact .inl ⟨rfl, nofun⟩
  split
  · exact .inl ⟨rfl, nofun⟩
  rename_i files hwrite
  obtain ⟨rfl, hsize⟩ := write_ok hwrite
  refine .inr ⟨rfl, hseq,
    ⟨receipt, es.getLast?.map W.entrySha256, resourceIdentity⟩, rfl, ?_⟩
  rw [hseq]
  exact h.append hbound howner.1 howner.2 hseq rfl hsize

theorem append_plan (J : UpgradeReceiptJournal W) (receipt : UpgradeReceipt)
    (resourceIdentity : Option String) :
    (J.append receipt resourceIdentity).1.plan = J.plan := by
  unfold UpgradeReceiptJournal.append
  dsimp only
  repeat' split
  all_goals rfl

theorem Shape.append_true (h : Shape J es) (hbound : es.length ≤ 4096)
    {receipt : UpgradeReceipt} (hjob : receipt.jobId = J.plan.jobId)
    (hgen : receipt.generation = J.plan.generation)
    (hseq : receipt.sequence = es.length + 1)
    (hsize : W.size (W.entry ⟨receipt, es.getLast?.map W.entrySha256, none⟩)
      ≤ maxDocumentBytes) : (J.append receipt none).2 = .ok true := by
  have hnone : es[receipt.sequence - 1]? = none := by
    rw [List.getElem?_eq_none_iff]
    omega
  unfold UpgradeReceiptJournal.append write
  rw [hjob, hgen, if_neg (not_not.mpr rfl), h.entries_eq hbound]
  dsimp only
  rw [hnone]
  dsimp only
  rw [if_neg (not_not.mpr hseq), hseq, h.get?_key, validKey_key,
    if_neg (Nat.not_lt.mpr hsize)]
  rfl

theorem Shape.acknowledge_spec (h : Shape J es) (hbound : es.length ≤ 4096)
    (ack : UpgradeReceiptAck) : Shape (J.acknowledge ack).1 es := by
  unfold UpgradeReceiptJournal.acknowledge
  split
  · exact h
  rename_i howner
  rw [ne_eq, not_not, Prod.mk.injEq] at howner
  rw [h.entries_eq hbound]
  dsimp only
  split
  · exact h
  split
  · exact h
  rename_i hseq
  rw [not_or, Nat.not_lt] at hseq
  split
  · exact h
  · rename_i files hwrite
    obtain ⟨rfl, hsize⟩ := write_ok hwrite
    exact h.acknowledge (decide_eq_true ⟨howner.1, howner.2, hseq.1⟩) hsize

theorem Shape.reopen (h : Shape J es) {J' : UpgradeReceiptJournal W}
    (hopen : openJournal W J.files plan = .ok J') : J' = J := by
  have hlock : J.files.setDefault "journal.lock" W.lock = J.files := by
    unfold Dict.setDefault
    rw [if_pos h.lock]
  unfold openJournal at hopen
  dsimp only at hopen
  rw [hlock, read_of_get? (by decide) h.plan.1 h.plan.2 (W.readPlan_plan _)] at hopen
  dsimp only at hopen
  split at hopen
  · cases hopen
  split at hopen
  · cases hopen
  · cases hopen
    rfl

theorem shape_open (h : openJournal W .empty plan = .ok J) : Shape J [] := by
  have hread : read W (Dict.empty.setDefault "journal.lock" W.lock) "plan.json"
      W.readPlan = .ok none := rfl
  unfold openJournal at h
  dsimp only at h
  rw [hread] at h
  dsimp only at h
  split at h
  · cases h
  rename_i files hwrite
  obtain ⟨rfl, hsize⟩ := write_ok hwrite
  split at h
  · cases h
  cases h
  exact ⟨by decide, rfl, (fun hi => nomatch hi), trivial, ⟨rfl, hsize⟩, rfl,
    (fun hdoc => nomatch hdoc)⟩

def Inv (s : History W) : Prop :=
  ∃ es, Shape s.journal es ∧ es.length ≤ 4096
    ∧ es.map (·.receipt) = s.appended

theorem inv_step {s : History W} (hs : Inv s) {c : Call} (h : Bounded s c) :
    Inv (step s c) := by
  obtain ⟨es, hshape, hbound, happended⟩ := hs
  cases c with
  | append receipt resourceIdentity =>
    show Inv ⟨_, if _ then _ else _⟩
    rcases hshape.append_spec hbound receipt resourceIdentity
      with ⟨hsame, hresult⟩ | ⟨hresult, hseq, e, rfl, hshape'⟩
    · grind [Inv]
    have h : e.receipt.sequence ≤ 4096 := h
    rw [if_pos hresult]
    refine ⟨es ++ [e], hshape', ?_, ?_⟩
    · grind
    · rw [List.map_append, happended]
      rfl
  | acknowledge ack =>
    exact ⟨es, hshape.acknowledge_spec hbound ack, hbound, happended⟩
  | reopen plan =>
    show Inv (match openJournal W s.journal.files plan with
      | .ok J => { s with journal := J }
      | .error _ => s)
    split
    · rename_i J hopen
      rw [hshape.reopen hopen]
      exact ⟨es, hshape, hbound, happended⟩
    · exact ⟨es, hshape, hbound, happended⟩
  | page after => exact ⟨es, hshape, hbound, happended⟩
  | latest => exact ⟨es, hshape, hbound, happended⟩
  | acknowledgedSequence => exact ⟨es, hshape, hbound, happended⟩

theorem pages_eq (h : J.entries = .ok es) {fuel after : ℕ}
    (hfuel : es.length ≤ after + 32 * fuel) :
    J.pages fuel after = (es.drop after).map (·.receipt) := by
  induction fuel generalizing after with
  | zero =>
    rw [List.drop_eq_nil_of_le (by omega)]
    rfl
  | succ fuel ih =>
    have hpage : J.page after = .ok (((es.drop after).take 32).map (·.receipt)) := by
      unfold UpgradeReceiptJournal.page
      rw [if_neg (by omega), h]
      rfl
    have hsplit : (es.drop after).map (·.receipt)
        = ((es.drop after).take 32).map (·.receipt)
          ++ (es.drop (after + 32)).map (·.receipt) := by
      rw [← List.map_append, ← List.drop_drop, List.take_append_drop]
    rw [UpgradeReceiptJournal.pages, hpage, hsplit, ← ih (by omega)]
    cases htake : ((es.drop after).take 32).map (·.receipt) with
    | cons r rs => rfl
    | nil =>
      -- an empty page is the end
      have hnil : es.drop after = [] := by
        have := List.map_eq_nil_iff.mp htake
        rw [List.take_eq_nil_iff] at this
        exact this.resolve_left (by decide)
      have hend := List.drop_eq_nil_iff.mp hnil
      rw [ih (by omega), List.drop_eq_nil_of_le (by omega)]
      rfl

theorem Inv.kept {s : History W} (hs : Inv s) : Kept s := by
  obtain ⟨es, hshape, hbound, happended⟩ := hs
  have hentries := hshape.entries_eq hbound
  refine ⟨es, hentries, happended, fun i e hi => ?_, fun fuel hfuel => ?_⟩
  · obtain ⟨hseq, hprev⟩ := chained_get hshape.chained hi
    rw [Option.or_none] at hprev
    exact ⟨by omega, hprev⟩
  · rw [pages_eq hentries (by omega), List.drop_zero, happended]

end

/-- **The receipt journal is kept, within its bound.** -/
theorem receipt_journal_kept (W : Wire) (plan : UpgradeExecutionPlan)
    (J : UpgradeReceiptJournal W) (calls : List Call)
    (hJ : openJournal W .empty plan = .ok J)
    (h : Run.Along step Bounded ⟨J, []⟩ calls) :
    Run.Throughout step Kept ⟨J, []⟩ calls :=
  Run.throughout_of_invariant Inv (fun _ hs => hs.kept) (fun _ _ hs h => inv_step hs h)
    ⟨[], shape_open hJ, Nat.zero_le _, rfl⟩ h

/-! ## At the bound -/

def plainWire : Wire where
  Doc := Option (UpgradeExecutionPlan ⊕ UpgradeJournalEntry ⊕ UpgradeReceiptAck)
  size _ := 0
  lock := none
  plan p := some (.inl p)
  entry e := some (.inr (.inl e))
  ack a := some (.inr (.inr a))
  readPlan doc := doc.bind Sum.getLeft?
  readEntry doc := (doc.bind Sum.getRight?).bind Sum.getLeft?
  readAck doc := (doc.bind Sum.getRight?).bind Sum.getRight?
  readPlan_plan _ := rfl
  readEntry_entry _ := rfl
  readAck_ack _ := rfl
  receiptSha256 r := r.effectId
  entrySha256 e := e.receipt.effectId

def somePlan : UpgradeExecutionPlan := ⟨"job", 1, "authority"⟩

def newJournal : UpgradeReceiptJournal plainWire :=
  ⟨somePlan, (Dict.empty.set "journal.lock" none).set "plan.json"
    (some (.inl somePlan))⟩

theorem openJournal_newJournal :
    openJournal plainWire .empty somePlan = .ok newJournal := rfl

def receiptNumbered (i : ℕ) : UpgradeReceipt where
  jobId := "job"
  generation := 1
  sequence := i % 4097 + 1
  effectId := "preflight"
  phase := .preflight
  occurredAt := 0
  outcome := .complete
  observedSha256 := none
  reason := none
  evidence := ""
  restoration := .notRequired
  sequence_bounds := by
    have := Nat.mod_lt i (show 0 < 4097 by decide)
    omega

/-- Receipts are appended, one of them twice, acknowledged and read. -/
theorem two_receipts_kept : Run.Throughout step Kept ⟨newJournal, []⟩
    [.append (receiptNumbered 0) none, .append (receiptNumbered 0) none,
      .append (receiptNumbered 1) none, .acknowledge ⟨"job", 1, 1⟩, .page 0,
      .latest, .acknowledgedSequence, .reopen somePlan] :=
  receipt_journal_kept plainWire somePlan newJournal _ openJournal_newJournal
    (by decide)

/-- The first `n` receipts, appended one after the other. -/
def fill (n : ℕ) : List Call :=
  (List.range n).map fun i => .append (receiptNumbered i) none

theorem last_fill_succ (n : ℕ) : Run.last step ⟨newJournal, []⟩ (fill (n + 1))
    = step (Run.last step ⟨newJournal, []⟩ (fill n))
      (.append (receiptNumbered n) none) := by
  unfold fill Run.last
  rw [List.range_succ, List.map_append, List.foldl_append]
  rfl

theorem shape_fill {n : ℕ} (hn : n ≤ 4097) : ∃ es, es.length = n
      ∧ Shape (Run.last step ⟨newJournal, []⟩ (fill n)).journal es
      ∧ (Run.last step ⟨newJournal, []⟩ (fill n)).journal.plan = somePlan := by
  induction n with
  | zero => exact ⟨[], rfl, shape_open openJournal_newJournal, rfl⟩
  | succ n ih =>
    obtain ⟨es, hlen, hshape, hplan⟩ := ih (by omega)
    have hseq : (receiptNumbered n).sequence = es.length + 1 := by
      rw [hlen]
      exact congrArg (· + 1) (Nat.mod_eq_of_lt (by omega))
    have htrue := hshape.append_true (by omega) (by rw [hplan]; rfl)
      (by rw [hplan]; rfl) hseq (Nat.zero_le _)
    rw [last_fill_succ]
    rcases hshape.append_spec (by omega) (receiptNumbered n) none
      with ⟨-, hne⟩ | ⟨-, -, e, -, hshape'⟩
    · exact absurd htrue hne
    refine ⟨es ++ [e], ?_, hshape', ?_⟩
    · rw [List.length_append, hlen]
      rfl
    · exact (append_plan _ _ _).trans hplan

/-- The journal of 4096 receipts accepts one more, and from then on nothing of it
is readable. -/
theorem full_journal_unreadable :
    ((Run.last step ⟨newJournal, []⟩ (fill 4096)).journal.append
      (receiptNumbered 4096) none).2 = .ok true
    ∧ (Run.last step ⟨newJournal, []⟩ (fill 4097)).journal.entries
      = .error (.unavailable "Upgrade journal exceeds its receipt bound")
    ∧ ¬ Run.Throughout step Kept ⟨newJournal, []⟩ (fill 4097) := by
  obtain ⟨es, hlen, hshape, hplan⟩ := shape_fill (n := 4096) (by decide)
  obtain ⟨es', hlen', hshape', -⟩ := shape_fill (n := 4097) (by decide)
  have hfull := hshape'.entries_full (by omega)
  refine ⟨?_, hfull, fun h => ?_⟩
  · exact hshape.append_true (by omega) (by rw [hplan]; rfl)
      (by rw [hplan]; rfl) (by rw [hlen]; rfl) (Nat.zero_le _)
  · obtain ⟨entries, hentries, -⟩ := h 4097
    rw [List.take_of_length_le (by simp [fill]), hfull] at hentries
    cases hentries

end Upgrades
