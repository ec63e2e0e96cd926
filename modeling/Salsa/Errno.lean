/-! # The error numbers, integer limits and protocol versions the library uses -/

namespace Salsa

def EPERM : Int := 1
def ENOENT : Int := 2
def ENXIO : Int := 6
def ENOMEM : Int := 12
def EFAULT : Int := 14
def EBUSY : Int := 16
def ENODEV : Int := 19
def EINVAL : Int := 22
def EBADFD : Int := 77

def INT_MAX : Int := 2147483647

def SNDRV_PROTOCOL_VERSION (major minor subminor : Int) : Int := major * 65536 + minor * 256 + subminor

/-- What a system call that fails leaves in `errno`. -/
abbrev Errno := { e : Nat // 0 < e }

/-- `-errno` -/
def Errno.neg (e : Errno) : Int := -(e.val : Int)

theorem Errno.neg_lt_zero (e : Errno) : e.neg < 0 := by
  have hpos := e.property
  unfold Errno.neg
  omega

end Salsa
