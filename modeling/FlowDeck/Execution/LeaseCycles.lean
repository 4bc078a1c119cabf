import FlowDeck.Execution.LeaseExclusion

/-! Whether a lease can end when earlier ones of its worktree or workstream have ended. -/

namespace LeaseExclusion

open WorktreeLease Machine

end LeaseExclusion
