import Iland.Ioctl.Marshalled
import Iland.Atomic.Order
import Iland.Safety
import Iland.Records
import Iland.Atomic.AllOrNothing
import Iland.Atomic.Completions
import Iland.Atomic.FbIds
import Iland.Atomic.Legacy
import Iland.Atomic.Planes
import Iland.Atomic.Pool
import Iland.Atomic.TestOnly
import Iland.Buffers.Blobs
import Iland.Buffers.Fresh
import Iland.Buffers.Handles
import Iland.Buffers.InFormats
import Iland.Buffers.Retains
import Iland.Buffers.UserData
import Iland.Drm.Timings
import Iland.Egl.ChooseConfig
import Iland.Egl.SwapPixels
import Iland.Ensured
import Iland.Epoll.RwLockProgress
import Iland.Epoll.EventFD
import Iland.Epoll.SignalFD
import Iland.Epoll.TimerRuns
import Iland.Events.Conservation
import Iland.Events.Fifo
import Iland.Events.Termination
import Iland.Events.Wakeup
import Iland.Gbm.Surface
import Iland.Ioctl.Crtc
import Iland.Ioctl.ModeBytes
import Iland.Libinput.Announce
import Iland.Libinput.ButtonEvents
import Iland.Libinput.EventQueue
import Iland.Libinput.Wakeup
import Iland.Sdl.Buttons
import Iland.Sdl.Keyboard
import Iland.Sdl.Pending
import Iland.Wayland.Signals
import Iland.Wayland.TimerCalls
import Iland.Wayland.TimerQueues
import Iland.Epoll.EpollFDRuns
