import Chartkeeper.Release.LabelStamp
import Chartkeeper.Release.Package
/-!
# What a release is rendered from

The settings of an install or an upgrade, apart from the chart's own address.
-/

namespace Chartkeeper

/-- The settings of an install or an upgrade. An empty version stands for the chart's own. -/
structure Action where
  chartName : String
  chartVersion : String
  values : Json
  credentials : Option Credentials
  skipTlsVerify : Bool
  stamp : Option LabelStamp
  deriving Repr, Inhabited

end Chartkeeper
