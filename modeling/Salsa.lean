import Salsa.Output
import Salsa.Output.Bounds
import Salsa.Chmap.Accepted
import Salsa.Chmap.Malformed
import Salsa.Ctl.Ascii
import Salsa.Ctl.EnumNames
import Salsa.Ctl.UserElems
import Salsa.Ctl.Compare
import Salsa.HwParams.Restore
import Salsa.HwParams.Narrow
import Salsa.Pcm.Ring
import Salsa.Pcm.Boundary
import Salsa.Tlv.Info
import Salsa.Tlv.Buffer
import Salsa.Hctl.Delivery
import Salsa.Mixer.Description
import Salsa.Mixer.Pelems
import Salsa.Mixer.Order
import Salsa.Mixer.Rescale
import Salsa.Mixer.Decode
import Salsa.Mixer.Attach
import Salsa.HwParams.Intersect
import Salsa.HwParams.SetNear
import Salsa.Pcm.Truncation
import Salsa.Pcm.Release
import Salsa.Pcm.Copied
import Salsa.Pcm.Silenced
import Salsa.Pcm.Silence64
import Salsa.Async.Registry
import Salsa.Device.Ownership
import Salsa.Device.Subdevices
import Salsa.HwParams.Enums
import Salsa.Tlv.Ranges
import Salsa.Tlv.Total
import Salsa.Tlv.Tree
import Salsa.Tlv.Inverse
import Salsa.Tlv.Accepted
import Salsa.Pcm.Distance
import Salsa.HwParams.Endpoints
import Salsa.Hctl.Contents
import Salsa.Pcm.Flow
import Salsa.Pcm.Choose
import Salsa.Async.Dispatch
import Salsa.Mixer.Coherence
import Salsa.Mixer.Mirror
import Salsa.Pcm.SyncPtr
import Salsa.Tlv.Store
import Salsa.Device.Books
import Salsa.Pcm.AreasSilence
import Salsa.Pcm.Installed
import Salsa.Chmap.Store
