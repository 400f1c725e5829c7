import DocScan.Filter
import DocScan.Value.Equality

/-!
# Equality of filters

Filters are equal when they have one shape, the same attributes, and values
that denote the same things.
-/

namespace DocScan.Filter

/-- Whether two filters say the same of the same attributes. -/
def equal : Filter → Filter → Bool
  | .test t a v, .test u b w => t = u && a = b && v.equal w
  | .member a vs, .member b ws => a = b && Value.equalItems vs ws
  | .isNull a, .isNull b => a = b
  | .isNotNull a, .isNotNull b => a = b
  | .and l r, .and l' r' => equal l l' && equal r r'
  | .or l r, .or l' r' => equal l l' && equal r r'
  | .not c, .not c' => equal c c'
  | .extension o a v, .extension p b w => o = p && a = b && v.equal w
  | .unknown, .unknown => true
  | .plain v, .plain w => v.equal w
  | _, _ => false

end DocScan.Filter
