import FlowDeck.Orchestration.ChildLifecycle

namespace ChildTerminal

open ChildExecution ChildLifecycle Machine Option

/-- The durable record under this record's key has ended. -/
def StoredTerminal (db : Database) (record : ChildExecutionRecord) : Prop :=
  ∃ stored, db.children.get? (recordKey record) = some stored ∧
    isTerminalChildState stored.status = true

/-- Every durable record that has ended keeps its status, its cancellation flag and its error. -/
def TerminalKept (db db' : Database) : Prop :=
  ∀ k stored, db.children.get? k = some stored → isTerminalChildState stored.status = true →
    ∃ stored', db'.children.get? k = some stored' ∧ stored'.status = stored.status ∧
      stored'.cancelRequested = stored.cancelRequested ∧ stored'.error = stored.error

/-- The record object is not behind a durable record that has ended. -/
def Current (w : World) (obj : Nat) : Prop :=
  StoredTerminal w.db (w.service.objects obj) →
    isTerminalChildState (w.service.objects obj).status = true

theorem TerminalKept.refl (db : Database) : TerminalKept db db :=
  fun _ stored hstored _ => ⟨stored, hstored, rfl, rfl, rfl⟩

theorem TerminalKept.trans {a b c : Database} (hab : TerminalKept a b) (hbc : TerminalKept b c) :
    TerminalKept a c := by
  intro k stored hstored hterminal
  obtain ⟨stored', hstored', hstatus, hcancel, herror⟩ := hab k stored hstored hterminal
  have hterminal' : isTerminalChildState stored'.status = true := hstatus ▸ hterminal
  obtain ⟨stored'', hstored'', hstatus', hcancel', herror'⟩ := hbc k stored' hstored' hterminal'
  exact ⟨stored'', hstored'', hstatus'.trans hstatus, hcancel'.trans hcancel,
    herror'.trans herror⟩

variable {db : Database} {w : World}

end ChildTerminal
