import BlockMiner.ContractSync
import Mathlib.Data.List.Nodup

/-!
# What the scan of the contract loses

The blocks between the first scanned block and the cursor have been gone through
(`NothingLost`) as long as three things do not happen (`Careful`): an insert fails
and leaves its hash without a row, an insert comes after another run's insert of
the same hash, and a run that ends moves the cursor over blocks that it did not
scan itself. The last can happen to runs that began before there was a cursor:
each looks back from its own latest block.

A run in flight has in its hands what it has not been through (`Covers`).
-/

namespace BlockMiner.ContractSync

variable {config : Config}

/-! ## The property -/

namespace Db

variable (db : Db)

def hasDeposit (txHash : ℕ) : Bool := (db.existing txHash).isSome

/-- The loop has been through the log. -/
def Seen (log : Received) : Prop := ∃ p ∈ db.processed, p.1 = log

instance (log : Received) : Decidable (db.Seen log) :=
  inferInstanceAs (Decidable (∃ p ∈ db.processed, _))

/-- ... and has a row for it, if it had a user. -/
def Registered (log : Received) : Prop :=
  db.Seen log ∧ ((log, true) ∈ db.processed → db.hasDeposit log.txHash = true)

end Db

structure NothingLost (db : Db) : Prop where
  registered : ∀ first ∈ db.firstScannedBlock, ∀ last ∈ db.lastScannedBlock,
    ∀ b, first ≤ b → b ≤ last → ∀ log ∈ received db.chain b, db.Registered log
  once : db.created.Nodup

/-! ## The condition -/

/-- The run that a step ends, moving the cursor. -/
def ending (db : Db) : Call → Answer → Option Scan
  | .getLogs scan, .ok => if scan.logs db.chain = [] then some scan else none
  | .findUser scan log [], .ok => if db.walletUser log.beneficiary = none then some scan else none
  | .findExisting scan log _ [], .ok => if db.hasDeposit log.txHash then some scan else none
  | .create scan _ _ [], .ok | .create scan _ _ [], .error => some scan
  | _, _ => none

/-- The blocks between the cursor and the run hold nothing that is not seen. -/
def NoGap (db : Db) (scan : Scan) : Prop :=
  ∀ last ∈ db.lastScannedBlock, ∀ b < scan.fromBlock, last < b →
    ∀ log ∈ received db.chain b, db.Seen log

/-- An insert leaves one row of its hash. -/
def InsertsOnce (db : Db) : Call → Answer → Prop
  | .create _ log _ _, .ok => log.txHash ∉ db.created
  | .create _ log _ _, .error => db.hasDeposit log.txHash = true
  | _, _ => True

def Careful (db : Db) (c : Call) (a : Answer) : Prop :=
  InsertsOnce db c a ∧ ∀ scan ∈ ending db c a, NoGap db scan

/-! ## Later states -/

/-- What a step leaves: blocks, records and hashes. -/
structure Later (db db' : Db) : Prop where
  blocks : db.chain.length ≤ db'.chain.length
  chain : ∀ b < db.chain.length, received db'.chain b = received db.chain b
  seen : ∀ log, db.Seen log → db'.Seen log
  deposits : ∀ h, db.hasDeposit h = true → db'.hasDeposit h = true

theorem hasDeposit_iff {db : Db} {h : ℕ} : db.hasDeposit h = true ↔
    ∃ i r, db.deposits.transactions.row i = some r ∧ r.txHash = some ⟨h, 0⟩ := by
  constructor
  · intro hhas
    obtain ⟨⟨i, r⟩, hfound⟩ := Option.isSome_iff_exists.mp hhas
    obtain ⟨hrow, hhash⟩ := Table.findFirst_eq_some hfound
    exact ⟨i, r, hrow, of_decide_eq_true hhash⟩
  · rintro ⟨i, r, hrow, hhash⟩
    by_contra hnot
    have hnone : db.existing h = none := by simpa [Db.hasDeposit] using hnot
    have hall := Table.findFirst_eq_none.mp hnone i r hrow
    simp [hhash] at hall

/-- Only the cursor has moved. -/
theorem later_of_eq {db db' : Db} (hchain : db'.chain = db.chain)
    (hprocessed : db'.processed = db.processed) (hdeposits : db'.deposits = db.deposits) :
    Later db db' where
  blocks := by rw [hchain]
  chain b _ := by rw [hchain]
  seen log hlog := by simpa only [Db.Seen, hprocessed] using hlog
  deposits h hhas := by simpa only [Db.hasDeposit, Db.existing, hdeposits] using hhas

theorem Later.refl (db : Db) : Later db db := later_of_eq rfl rfl rfl

theorem Later.trans {db db' db'' : Db} (h : Later db db') (h' : Later db' db'') :
    Later db db'' where
  blocks := h.blocks.trans h'.blocks
  chain b hb := (h'.chain b (hb.trans_le h.blocks)).trans (h.chain b hb)
  seen log hlog := h'.seen log (h.seen log hlog)
  deposits hash hhas := h'.deposits hash (h.deposits hash hhas)

section Writes

variable (db : Db)

theorem seen_process {log log' : Received} {linked : Bool} :
    (db.process log linked).Seen log' ↔ db.Seen log' ∨ log' = log := by
  simp [Db.Seen, Db.process, or_and_right, exists_or, eq_comm]

theorem process_later (log : Received) (linked : Bool) : Later db (db.process log linked) where
  blocks := le_rfl
  chain _ _ := rfl
  seen log' hlog' := (seen_process db).mpr (Or.inl hlog')
  deposits _ h := h

theorem hasDeposit_register (userId : UserId) (h : ℕ) :
    (db.register userId h).hasDeposit h = true :=
  hasDeposit_iff.mpr ⟨_, _, Table.insert_row_self .., rfl⟩

theorem register_later (userId : UserId) (h : ℕ) : Later db (db.register userId h) where
  blocks := le_rfl
  chain _ _ := rfl
  seen _ hlog := hlog
  deposits h' hhas := by
    obtain ⟨i, r, hrow, hhash⟩ := hasDeposit_iff.mp hhas
    exact hasDeposit_iff.mpr ⟨i, r, Table.insert_row_of_some hrow _, hhash⟩

theorem finish_later (scan : Scan) : Later db (db.finish scan) := later_of_eq rfl rfl rfl

theorem mine_later (logs : List Log) :
    Later db { db with chain := db.chain ++ [logs] } where
  blocks := by simp
  chain b hb := by simp [received, List.getElem?_append_left hb]
  seen _ hlog := hlog
  deposits _ h := h

theorem others_later {deposits : Deposit.Db} (h : KeepsRows db.deposits deposits) :
    Later db { db with deposits := deposits } where
  blocks := le_rfl
  chain _ _ := rfl
  seen _ hlog := hlog
  deposits hash hhas := by
    obtain ⟨i, r, hrow, hhash⟩ := hasDeposit_iff.mp hhas
    obtain ⟨⟨i', r'⟩, hmem, -, hsame⟩ := h (i, r) (Table.mem_rows.mpr hrow)
    exact hasDeposit_iff.mpr ⟨i', r', Table.mem_rows.mp hmem, hsame.trans hhash⟩

end Writes

/-! ## The invariant -/

structure Inv (db : Db) : Prop where
  seen : ∀ first ∈ db.firstScannedBlock, ∀ last ∈ db.lastScannedBlock,
    ∀ b, first ≤ b → b ≤ last → ∀ log ∈ received db.chain b, db.Seen log
  rows : ∀ log, (log, true) ∈ db.processed → db.hasDeposit log.txHash = true
  once : db.created.Nodup
  inChain : ∀ last ∈ db.lastScannedBlock, last < db.chain.length
  cursor : db.lastScannedBlock = none → db.firstScannedBlock = none

theorem Inv.nothingLost {db : Db} (h : Inv db) : NothingLost db where
  registered first hfirst last hlast b hb hb' log hlog :=
    ⟨h.seen first hfirst last hlast b hb hb' log hlog, h.rows log⟩
  once := h.once

/-- A run with these logs in hand has been through the others of its blocks. -/
structure Covers (db : Db) (scan : Scan) (logs : List Received) : Prop where
  inChain : scan.latest < db.chain.length
  seen : ∀ b, scan.fromBlock ≤ b → b ≤ scan.latest → ∀ log ∈ received db.chain b,
    db.Seen log ∨ log ∈ logs

def CallInv (db : Db) : Call → Prop
  | .getBlockNumber => True
  | .getLogs scan => scan.latest < db.chain.length
  | .findUser scan log rest | .findExisting scan log _ rest | .create scan log _ rest =>
      Covers db scan (log :: rest)

theorem Covers.later {db db' : Db} {scan : Scan} {logs : List Received}
    (h : Covers db scan logs) (hlater : Later db db') : Covers db' scan logs where
  inChain := h.inChain.trans_le hlater.blocks
  seen b hb hb' log hlog := by
    rw [hlater.chain b (hb'.trans_lt h.inChain)] at hlog
    exact (h.seen b hb hb' log hlog).imp_left (hlater.seen log)

theorem CallInv.later {db db' : Db} {c : Call} (h : CallInv db c) (hlater : Later db db') :
    CallInv db' c := by
  cases c with
  | getBlockNumber => trivial
  | getLogs scan => exact Nat.lt_of_lt_of_le h hlater.blocks
  | findUser scan log rest | findExisting scan log userId rest | create scan log userId rest =>
      exact Covers.later h hlater

theorem NoGap.later {db db' : Db} {scan : Scan} (h : NoGap db scan) (hlater : Later db db')
    (hchain : db'.chain = db.chain) (hlast : db'.lastScannedBlock = db.lastScannedBlock) :
    NoGap db' scan := by
  intro last hmem b hb hb' log hlog
  rw [hlast] at hmem
  rw [hchain] at hlog
  exact hlater.seen log (h last hmem b hb hb' log hlog)

/-! ## One step -/

theorem Inv.process {db : Db} (h : Inv db) {log : Received} {linked : Bool}
    (hrow : linked = true → db.hasDeposit log.txHash = true) : Inv (db.process log linked) where
  seen first hfirst last hlast b hb hb' log' hlog' :=
    (process_later db log linked).seen log' (h.seen first hfirst last hlast b hb hb' log' hlog')
  rows log' hmem := by
    rcases List.mem_append.mp hmem with hold | hnew
    · exact h.rows log' hold
    · obtain ⟨rfl, rfl⟩ := Prod.mk.inj (List.mem_singleton.mp hnew)
      exact hrow rfl
  once := h.once
  inChain := h.inChain
  cursor := h.cursor

theorem Inv.register {db : Db} (h : Inv db) {userId : UserId} {hash : ℕ}
    (hnew : hash ∉ db.created) : Inv (db.register userId hash) where
  seen := h.seen
  rows log hmem := (register_later db userId hash).deposits _ (h.rows log hmem)
  once := by
    refine List.nodup_append.mpr ⟨h.once, List.nodup_singleton hash, ?_⟩
    rintro a ha b hb rfl
    obtain rfl := List.mem_singleton.mp hb
    exact hnew ha
  inChain := h.inChain
  cursor := h.cursor

/-- The run that ends has seen its own blocks, and those below it were seen before. -/
theorem Inv.finish {db : Db} (h : Inv db) {scan : Scan} (hcovers : Covers db scan [])
    (hgap : NoGap db scan) : Inv (db.finish scan) where
  seen := by
    rintro first hfirst last hlast b hb hb' log hlog
    obtain rfl : scan.latest = last := Option.some.inj hlast
    by_cases hown : scan.fromBlock ≤ b
    · rcases hcovers.seen b hown hb' log hlog with hseen | hhand
      · exact hseen
      · cases hhand
    · obtain rfl := Option.some.inj hfirst
      cases hf : db.firstScannedBlock with
      | none =>
          rw [hf] at hb
          exact absurd hb hown
      | some first =>
          rw [hf] at hb
          have hfirst : first ≤ b := by
            simp only [Option.elim_some] at hb
            omega
          cases hl : db.lastScannedBlock with
          | none =>
              have hnone := h.cursor hl
              rw [hf] at hnone
              cases hnone
          | some last =>
              by_cases hbelow : b ≤ last
              · exact h.seen first hf last hl b hfirst hbelow log hlog
              · exact hgap last hl b (not_le.mp hown) (not_le.mp hbelow) log hlog
  rows := h.rows
  once := h.once
  inChain := by
    rintro last hlast
    obtain rfl : scan.latest = last := Option.some.inj hlast
    exact hcovers.inChain
  cursor hnone := by cases hnone

/-- Where the node is behind, the cursor moves back. -/
theorem Inv.behind {db : Db} (h : Inv db) {config : Config} {latest : ℕ}
    (hlatest : latest < db.chain.length) (hbehind : latest < db.fromBlock config latest) :
    Inv { db with lastScannedBlock := some latest } where
  seen := by
    rintro first hfirst last hlast b hb hb' log hlog
    obtain rfl : latest = last := Option.some.inj hlast
    cases hl : db.lastScannedBlock with
    | none =>
        have hnone := h.cursor hl
        rw [show db.firstScannedBlock = some first from hfirst] at hnone
        cases hnone
    | some last =>
        simp only [Db.fromBlock, hl] at hbehind
        exact h.seen first hfirst last hl b hb (by omega) log hlog
  rows := h.rows
  once := h.once
  inChain := by
    rintro last hlast
    obtain rfl : latest = last := Option.some.inj hlast
    exact hlatest
  cursor hnone := by cases hnone

/-- What a step has to keep. -/
structure Keeps (db db' : Db) (next : Option Call) : Prop where
  inv : Inv db'
  later : Later db db'
  next : ∀ c ∈ next, CallInv db' c

theorem next_keeps {db db' db'' : Db} {scan : Scan} {logs : List Received} {next : Option Call}
    (hI : Inv db') (hlater : Later db db') (hcovers : Covers db' scan logs)
    (hgap : logs = [] → NoGap db' scan) (h : db'.next scan logs = (db'', next)) :
    Keeps db db'' next := by
  cases logs with
  | nil =>
      obtain ⟨rfl, rfl⟩ := Prod.mk.inj h
      exact ⟨hI.finish hcovers (hgap rfl), hlater.trans (finish_later db' scan), by simp⟩
  | cons log rest =>
      obtain ⟨rfl, rfl⟩ := Prod.mk.inj h
      refine ⟨hI, hlater, ?_⟩
      rintro c hc
      obtain rfl := Option.some.inj hc
      exact hcovers

/-- The loop goes on behind a log. -/
theorem Covers.process {db : Db} {scan : Scan} {log : Received} {rest : List Received}
    (h : Covers db scan (log :: rest)) (linked : Bool) :
    Covers (db.process log linked) scan rest where
  inChain := h.inChain
  seen b hb hb' log' hlog' := by
    rcases h.seen b hb hb' log' hlog' with hseen | hhand
    · exact Or.inl ((process_later db log linked).seen log' hseen)
    · rcases List.mem_cons.mp hhand with rfl | hrest
      · exact Or.inl ((seen_process db).mpr (Or.inr rfl))
      · exact Or.inr hrest

/-- The loop goes on behind a log, in a database that already satisfies the invariant. -/
theorem process_keeps {db db' db'' : Db} {scan : Scan} {log : Received} {rest : List Received}
    {linked : Bool} {next : Option Call} (hI : Inv db') (hlater : Later db db')
    (hcovers : Covers db' scan (log :: rest))
    (hrow : linked = true → db'.hasDeposit log.txHash = true)
    (hgap : rest = [] → NoGap db' scan)
    (h : (db'.process log linked).next scan rest = (db'', next)) : Keeps db db'' next :=
  next_keeps (hI.process hrow) (hlater.trans (process_later db' log linked))
    (hcovers.process linked)
    (fun hrest => (hgap hrest).later (process_later db' log linked) rfl rfl) h

theorem mem_logs {scan : Scan} {chain : List (List Log)} {log : Received} {b : ℕ}
    (hb : scan.fromBlock ≤ b) (hb' : b ≤ scan.latest) (hlog : log ∈ received chain b) :
    log ∈ scan.logs chain := by
  refine List.mem_flatMap.mpr ⟨b, List.mem_range'_1.mpr ⟨hb, by omega⟩, hlog⟩

theorem resume_keeps {db db' : Db} {c : Call} {a : Answer} {next : Option Call} (hI : Inv db)
    (hc : CallInv db c) (hcareful : Careful db c a)
    (h : resume config db c a = some (db', next)) : Keeps db db' next := by
  obtain ⟨hinsert, hgap⟩ := hcareful
  cases c with
  | getBlockNumber =>
      cases a with
      | blockNumber latest =>
          simp only [resume] at h
          split at h
          case isTrue hlatest =>
            split at h
            case isTrue hbehind =>
              obtain ⟨rfl, rfl⟩ := Prod.mk.inj (Option.some.inj h)
              exact ⟨hI.behind hlatest hbehind, later_of_eq rfl rfl rfl, by simp⟩
            case isFalse =>
              obtain ⟨rfl, rfl⟩ := Prod.mk.inj (Option.some.inj h)
              refine ⟨hI, Later.refl db, ?_⟩
              rintro c hc
              obtain rfl := Option.some.inj hc
              exact hlatest
          case isFalse => cases h
      | ok => cases h
      | error =>
          obtain ⟨rfl, rfl⟩ := Prod.mk.inj (Option.some.inj h)
          exact ⟨hI, Later.refl db, by simp⟩
  | getLogs scan =>
      cases a with
      | ok =>
          refine next_keeps hI (Later.refl db) ⟨hc, ?_⟩ ?_ (Option.some.inj h)
          · intro b hb hb' log hlog
            exact Or.inr (mem_logs hb hb' hlog)
          · intro hnone
            exact hgap scan (if_pos hnone)
      | blockNumber latest => cases h
      | error =>
          obtain ⟨rfl, rfl⟩ := Prod.mk.inj (Option.some.inj h)
          exact ⟨hI, Later.refl db, by simp⟩
  | findUser scan log rest =>
      cases a with
      | ok =>
          simp only [resume] at h
          split at h
          case h_1 hnone =>
            refine process_keeps hI (Later.refl db) hc (by simp) ?_ (Option.some.inj h)
            rintro rfl
            exact hgap scan (if_pos hnone)
          case h_2 =>
            obtain ⟨rfl, rfl⟩ := Prod.mk.inj (Option.some.inj h)
            refine ⟨hI, Later.refl db, ?_⟩
            rintro c hc'
            obtain rfl := Option.some.inj hc'
            exact hc
      | blockNumber latest => cases h
      | error =>
          obtain ⟨rfl, rfl⟩ := Prod.mk.inj (Option.some.inj h)
          exact ⟨hI, Later.refl db, by simp⟩
  | findExisting scan log userId rest =>
      cases a with
      | ok =>
          simp only [resume] at h
          split at h
          case h_1 found hfound =>
            have hhas : db.hasDeposit log.txHash = true := by simp [Db.hasDeposit, hfound]
            refine process_keeps hI (Later.refl db) hc (fun _ => hhas) ?_ (Option.some.inj h)
            rintro rfl
            exact hgap scan (if_pos hhas)
          case h_2 =>
            obtain ⟨rfl, rfl⟩ := Prod.mk.inj (Option.some.inj h)
            refine ⟨hI, Later.refl db, ?_⟩
            rintro c hc'
            obtain rfl := Option.some.inj hc'
            exact hc
      | blockNumber latest => cases h
      | error =>
          obtain ⟨rfl, rfl⟩ := Prod.mk.inj (Option.some.inj h)
          exact ⟨hI, Later.refl db, by simp⟩
  | create scan log userId rest =>
      cases a with
      | ok =>
          have hlater := register_later db userId log.txHash
          refine process_keeps (hI.register hinsert) hlater (Covers.later hc hlater)
            (fun _ => hasDeposit_register db userId log.txHash) ?_ (Option.some.inj h)
          rintro rfl
          exact (hgap scan rfl).later hlater rfl rfl
      | error =>
          refine process_keeps hI (Later.refl db) hc (fun _ => hinsert) ?_ (Option.some.inj h)
          rintro rfl
          exact hgap scan rfl
      | blockNumber latest => cases h

theorem start_keeps {db db' : Db} {r : Request} {cs : List Call} (hI : Inv db)
    (h : start config db r = some (db', cs)) :
    Inv db' ∧ Later db db' ∧ ∀ c ∈ cs, CallInv db' c := by
  cases r with
  | runContractDepositSyncOnce =>
      obtain ⟨rfl, rfl⟩ := Prod.mk.inj (Option.some.inj h)
      refine ⟨hI, Later.refl db, ?_⟩
      intro c hc
      split at hc
      · obtain rfl := List.mem_singleton.mp hc
        trivial
      · cases hc
  | mine logs =>
      obtain ⟨rfl, rfl⟩ := Prod.mk.inj (Option.some.inj h)
      have hlater := mine_later db logs
      refine ⟨⟨?_, hI.rows, hI.once, ?_, hI.cursor⟩, hlater, by simp⟩
      · intro first hfirst last hlast b hb hb' log hlog
        rw [hlater.chain b (hb'.trans_lt (hI.inChain last hlast))] at hlog
        exact hI.seen first hfirst last hlast b hb hb' log hlog
      · intro last hlast
        exact (hI.inChain last hlast).trans_le hlater.blocks
  | others deposits =>
      simp only [start] at h
      split at h
      case isTrue hkeeps =>
        obtain ⟨rfl, rfl⟩ := Prod.mk.inj (Option.some.inj h)
        have hlater := others_later db hkeeps
        refine ⟨⟨hI.seen, ?_, hI.once, hI.inChain, hI.cursor⟩, hlater, by simp⟩
        intro log hmem
        exact hlater.deposits _ (hI.rows log hmem)
      case isFalse => cases h

/-! ## Runs -/

/-- The process has started; nothing is scanned. -/
structure Fresh (s : InFlight Db Call) : Prop where
  lastScannedBlock : s.db.lastScannedBlock = none
  firstScannedBlock : s.db.firstScannedBlock = none
  processed : s.db.processed = []
  created : s.db.created = []
  calls : ∀ i, s.calls.row i = none

theorem Fresh.inv {s : InFlight Db Call} (h : Fresh s) : Inv s.db where
  seen := by simp [h.firstScannedBlock]
  rows := by simp [h.processed]
  once := by simp [h.created]
  inChain := by simp [h.lastScannedBlock]
  cursor _ := h.firstScannedBlock

/-- **The scan loses no event**, however its runs overlap and whatever fails, if
inserts leave one row of their hash and no run that ends leaves a gap. -/
theorem scan_loses_nothing (config : Config) {s t : InFlight Db Call}
    {es : List (Event Request Answer)} (hs : Fresh s)
    (hcareful : (service config).sys.Meets (Service.Guard Careful) s es)
    (hrun : (service config).sys.run s es = some t) : NothingLost t.db := by
  have hholds := (service config).invariant (I := Inv) (J := CallInv)
    (fun db r db' cs hI h =>
      have ⟨hI', hlater, hcs⟩ := start_keeps hI h
      ⟨hI', fun _ hd => hd.later hlater, hcs⟩)
    (fun db c a db' next hI hc hcareful h =>
      have hkeeps := resume_keeps hI hc hcareful h
      ⟨hkeeps.inv, fun _ hd => hd.later hkeeps.later, hkeeps.next⟩)
    ⟨hs.inv, by simp [hs.calls]⟩ hcareful hrun
  exact hholds.1.nothingLost

/-! User 1 has linked the wallet 7, for which the first block holds a deposit. -/

def scanned : Config := ⟨some 100, none⟩

def oneEvent : InFlight Db Call where
  db :=
    { chain := [[⟨0, some 7, some 5⟩]]
      deposits := ⟨.empty, .insert .empty ⟨some 7, 0⟩, .empty, []⟩
      lastScannedBlock := none
      firstScannedBlock := none
      processed := []
      created := [] }
  calls := .empty

theorem fresh_oneEvent : Fresh oneEvent := ⟨rfl, rfl, rfl, rfl, fun _ => rfl⟩

/-- One run up to its insert, and the answer to it. -/
def oneScan (insert : Answer) : List (Event Request Answer) :=
  [.start .runContractDepositSyncOnce, .resume 1 (.blockNumber 0), .resume 1 .ok, .resume 1 .ok,
    .resume 1 .ok, .resume 1 insert]

instance (db : Db) (scan : Scan) : Decidable (NoGap db scan) :=
  inferInstanceAs (Decidable (∀ last ∈ db.lastScannedBlock, ∀ b < scan.fromBlock, _))

instance : ∀ (db : Db) (c : Call) (a : Answer), Decidable (InsertsOnce db c a)
  | db, .create _ log _ _, .ok => inferInstanceAs (Decidable (log.txHash ∉ db.created))
  | db, .create _ log _ _, .error => inferInstanceAs (Decidable (db.hasDeposit log.txHash = true))
  | _, .create _ _ _ _, .blockNumber _ | _, .getBlockNumber, _ | _, .getLogs _, _
  | _, .findUser _ _ _, _ | _, .findExisting _ _ _ _, _ => inferInstanceAs (Decidable True)

instance (db : Db) (c : Call) (a : Answer) : Decidable (Careful db c a) :=
  inferInstanceAs (Decidable (_ ∧ ∀ scan ∈ ending db c a, _))

theorem scan_loses_nothing_oneScan :
    ∃ t ∈ (service scanned).sys.run oneEvent (oneScan .ok), NothingLost t.db := by
  have hcareful : (service scanned).sys.Meets (Service.Guard Careful) oneEvent (oneScan .ok) := by
    decide +kernel
  have hrun : ((service scanned).sys.run oneEvent (oneScan .ok)).isSome := by decide +kernel
  obtain ⟨t, ht⟩ := Option.isSome_iff_exists.mp hrun
  exact ⟨t, ht, scan_loses_nothing scanned fresh_oneEvent hcareful ht⟩

/-- The insert fails, and the cursor moves past the event. -/
theorem failed_insert_loses_event :
    ¬∀ (config : Config) (s t : InFlight Db Call) (es : List (Event Request Answer)), Fresh s →
      (service config).sys.run s es = some t → NothingLost t.db := by
  intro h
  have hrun : ∃ t ∈ (service scanned).sys.run oneEvent (oneScan .error),
      t.db.firstScannedBlock = some 0 ∧ t.db.lastScannedBlock = some 0
        ∧ ⟨0, 0, 7, 5⟩ ∈ received t.db.chain 0 ∧ (⟨0, 0, 7, 5⟩, true) ∈ t.db.processed
        ∧ t.db.hasDeposit 5 = false := by
    decide +kernel
  obtain ⟨t, ht, hfirst, hlast, hlog, hlinked, hnone⟩ := hrun
  have hlost := (h scanned oneEvent t (oneScan .error) fresh_oneEvent ht).registered 0 hfirst 0
    hlast 0 le_rfl le_rfl _ hlog
  rw [hlost.2 hlinked] at hnone
  cases hnone

end BlockMiner.ContractSync
