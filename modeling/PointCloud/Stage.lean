/-!
# Stages of a writer

A writer goes through six stages, always in this order.  A batch of points may
be written in the fourth and the fifth; writing the first batch leads from the
one to the other.
-/

namespace PointCloud

/-- How far a writer has got. -/
inductive Stage where
  | constructed
  | configured
  | prepared
  | ready
  | writing
  | done
  deriving Repr, DecidableEq

/-- The name of a stage in messages. -/
def Stage.name : Stage → String
  | .constructed => "Constructed"
  | .configured => "OptionsProcessed"
  | .prepared => "Prepared"
  | .ready => "Ready"
  | .writing => "Writing"
  | .done => "Done"

/-- Whether batches of points may be written. -/
def Stage.acceptsPoints : Stage → Bool
  | .ready | .writing => true
  | _ => false

end PointCloud
