import DataBridge.Migration.CarriedOut
import Mathlib.Data.Nat.Find

namespace DataBridge

open Call (Simulates Silent Fails)

variable {D W α : Type}

/-- A world in which some of the calls for rows fail, and how many of them were made. -/
structure Intermittent (W : Type) where
  world : W
  calls : Nat

namespace Intermittent

variable (faults : Nat → Option Exc)

/-- A call that is not for rows. -/
def unhindered (c : Call Exc W α) : Call Exc (Intermittent W) α :=
  Call.zoom world (fun w s => { s with world := w }) c

/-- A call for rows. Where `faults` has an exception for its number, it raises it and has done
nothing. -/
def numbered (c : Call Exc W α) : Call Exc (Intermittent W) α := fun s =>
  match faults s.calls with
  | some exc => (.raised exc, { s with calls := s.calls + 1 })
  | none => unhindered c { s with calls := s.calls + 1 }

/-- Of `m + 1` calls for rows one after the other, one gets through. -/
def Recovers (m : Nat) : Prop := ∀ n, ∃ k, k ≤ m ∧ faults (n + k) = none

/-- From the `n`-th call on, `k` fail and the next gets through. -/
def Left (n k : Nat) : Prop := (∀ i, i < k → faults (n + i) ≠ none) ∧ faults (n + k) = none

/-- The world stands for the databases, and as many faults are left. -/
structure Amid (At : D → W → Prop) (e : Faulted D) (s : Intermittent W) : Prop where
  world : At e.data s.world
  left : Left faults s.calls e.faults

variable {faults}

theorem Recovers.left {m : Nat} (h : Recovers faults m) (n : Nat) :
    ∃ k, k ≤ m ∧ Left faults n k := by
  obtain ⟨k, hk, hthrough⟩ := h n
  have hex : ∃ k, faults (n + k) = none := ⟨k, hthrough⟩
  have hleast : Nat.find hex ≤ k := Nat.find_min' hex hthrough
  exact ⟨Nat.find hex, by omega, fun i hi => Nat.find_min hex hi, Nat.find_spec hex⟩

theorem Left.through {n : Nat} (h : Left faults n 0) : faults n = none := h.2

theorem Left.next {n k : Nat} (h : Left faults n (k + 1)) :
    ∃ exc, faults n = some exc ∧ Left faults (n + 1) k := by
  obtain ⟨hfail, hthrough⟩ := h
  have hfirst : faults n ≠ none := hfail 0 (by omega)
  obtain ⟨exc, hexc⟩ := Option.ne_none_iff_exists'.mp hfirst
  refine ⟨exc, hexc, ?_, ?_⟩
  · intro i hi
    have hshift : n + 1 + i = n + (i + 1) := by omega
    rw [hshift]
    exact hfail (i + 1) (by omega)
  · have hshift : n + 1 + k = n + (k + 1) := by omega
    rw [hshift]
    exact hthrough

section calls

variable {At : D → W → Prop} {d : D} {c : Call Exc W α}

theorem simulates_unhindered {R : α → D → Prop} (hc : Simulates At d R c) (k : Nat) :
    Simulates (Amid faults At) ⟨d, k⟩ (fun a e => R a e.data ∧ e.faults = k) (unhindered c) := by
  refine (hc.zoom (fun d' => (⟨d', k⟩ : Faulted D)) (fun _ h => h.world) ?_).mono ?_
  · exact fun s w d' h hat => ⟨hat, h.left⟩
  · intro a e h
    obtain ⟨d', hr, heq⟩ := h
    rw [heq]
    exact ⟨hr, rfl⟩

theorem silent_unhindered {e : Faulted D} (hc : Silent At e.data c) :
    Silent (Amid faults At) e (unhindered c) := by
  refine (simulates_unhindered hc e.faults).mono ?_
  intro a e' h
  obtain ⟨hdata, hfaults⟩ := h
  cases e'
  cases e
  simp only at hdata hfaults
  rw [hdata, hfaults]

theorem answers_unhindered {e : Faulted D} {r : Except Exc α} (hc : Call.Answers At e.data r c) :
    Call.Answers (Amid faults At) e r (unhindered c) :=
  hc.zoom (fun _ h => h.world) (fun _ _ h hat => ⟨hat, h.left⟩)

/-- A call that works is one that gets through in time. -/
theorem repeated_numbered {m : Nat} (hrecovers : Recovers faults m) {P : α → Prop} {d' : D}
    (hc : Simulates At d (fun a e => P a ∧ e = d') c) :
    Repeated m (Amid faults At) d d' P (numbered faults c) where
  fails k := by
    intro s hs
    obtain ⟨exc, hexc, hleft⟩ := hs.left.next
    have hrun : numbered faults c s = (.raised exc, { s with calls := s.calls + 1 }) := by
      rw [numbered, hexc]
    rw [Call.wp, hrun]
    exact ⟨hs.world, hleft⟩
  works := by
    intro s hs
    obtain ⟨k, hk, hleft⟩ := hrecovers.left (s.calls + 1)
    have hrun : numbered faults c s = unhindered c { s with calls := s.calls + 1 } := by
      rw [numbered, hs.left.through]
    have hthrough : Simulates (Amid faults At) ⟨d, k⟩ _ (unhindered c) :=
      simulates_unhindered hc k
    rw [Call.wp, hrun]
    refine Call.wp_mono (hthrough _ ⟨hs.world, hleft⟩) ?_ (fun _ _ h => h) (fun _ h => h)
    intro a s' h
    obtain ⟨e, ⟨⟨hp, hdata⟩, hfaults⟩, hat⟩ := h
    exact ⟨e, ⟨hp, hdata, by omega⟩, hat⟩

end calls

end Intermittent

open Intermittent (unhindered numbered Recovers Amid simulates_unhindered repeated_numbered)

def BaseDatabaseProvider.intermittent (faults : Nat → Option Exc) (p : BaseDatabaseProvider W) :
    BaseDatabaseProvider (Intermittent W) where
  getTableSchema t := unhindered (p.getTableSchema t)
  tableExists t := unhindered (p.tableExists t)
  fetchBatch t offset limit cols := numbered faults (p.fetchBatch t offset limit cols)
  createTable schema := unhindered (p.createTable schema)
  insertBatch t rows cols := numbered faults (p.insertBatch t rows cols)
  truncateTable t := unhindered (p.truncateTable t)

def ManagedProvider.intermittent (faults : Nat → Option Exc) (p : ManagedProvider W) :
    ManagedProvider (Intermittent W) where
  toBaseDatabaseProvider := p.toBaseDatabaseProvider.intermittent faults
  connect := unhindered p.connect
  disconnect := unhindered p.disconnect

/-- Both databases work, and no call fails. -/
structure Faultless (store : DestinationStore D) (At : D → W → Prop)
    (held : String → Option (List Row)) (src dst : BaseDatabaseProvider W) : Prop where
  fetch : ∀ d t rows offset limit cols, held t = some rows →
    Simulates At d (fun batch e => batch = selectRows rows ⟨cols, t, limit, offset⟩ ∧ e = d)
      (src.fetchBatch t offset limit cols)
  create : ∀ d schema, Simulates At d (fun _ e => e = store.create d schema)
    (dst.createTable schema)
  clear : ∀ d t, store.present d t = true → Simulates At d (fun _ e => e = store.clear d t)
    (dst.truncateTable t)
  insert : ∀ d t batch, batch ≠ [] → store.Accepts d t batch →
    Simulates At d (fun _ e => e = store.append d t batch) (dst.insertBatch t batch none)

/-- Databases that work do so amid faults that recover. -/
theorem Faultless.working {store : DestinationStore D} {At : D → W → Prop}
    {held : String → Option (List Row)} {src dst : BaseDatabaseProvider W}
    (h : Faultless store At held src dst) {m : Nat} {faults : Nat → Option Exc}
    (hrecovers : Recovers faults m) :
    Working m store (Amid faults At) held (src.intermittent faults) (dst.intermittent faults) where
  fetch d t rows offset limit cols hrows :=
    repeated_numbered hrecovers (h.fetch d t rows offset limit cols hrows)
  create e schema := by
    refine (simulates_unhindered (h.create e.data schema) e.faults).mono ?_
    intro _ e' hr
    cases e'
    obtain ⟨rfl, rfl⟩ := hr
    rfl
  clear e t hpresent := by
    refine (simulates_unhindered (h.clear e.data t hpresent) e.faults).mono ?_
    intro _ e' hr
    cases e'
    obtain ⟨rfl, rfl⟩ := hr
    rfl
  insert d t batch hne haccepts :=
    repeated_numbered hrecovers
      ((h.insert d t batch hne haccepts).mono fun _ _ hr => ⟨trivial, hr⟩)

end DataBridge
