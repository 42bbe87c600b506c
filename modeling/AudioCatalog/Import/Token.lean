/-!
# Cancel tokens

Cancelling an import and committing it race for one token.  A token is claimed by
whoever comes first: `cancel` succeeds only on a pending token and `claim` likewise,
so never both.  A claim whose commit is rolled back is given back with `release`.
-/

namespace AudioCatalog

/-- The state of a cancel token. -/
inductive CancelToken where
  | pending
  | cancelled
  | committing
  deriving DecidableEq

/-- What an attempt to cancel comes to. -/
inductive CancelAnswer where
  | cancelled
  | alreadyCancelled
  /-- The import has claimed its commit point. -/
  | pastCommitPoint
  deriving DecidableEq

/-- The word for an answer. -/
def CancelAnswer.label : CancelAnswer → String
  | cancelled => "Cancelled"
  | alreadyCancelled => "AlreadyCancelled"
  | pastCommitPoint => "PastCommitPoint"

namespace CancelToken

/-- Cancels a pending token. -/
def cancel : CancelToken → CancelAnswer × CancelToken
  | pending => (.cancelled, cancelled)
  | cancelled => (.alreadyCancelled, cancelled)
  | committing => (.pastCommitPoint, committing)

/-- Claims the commit point of a pending token; any other is refused. -/
def claim : CancelToken → Option CancelToken
  | pending => some committing
  | cancelled | committing => none

/-- Gives a claim back after the commit was rolled back. -/
def release : CancelToken → CancelToken
  | committing => pending
  | token => token

end CancelToken

end AudioCatalog
