import SignalIOS.Util.NSData

/-! The CRC that a packet of the handshake ends with. -/
namespace SignalIOS

def defaultPolynomial : UInt32 := 0xEDB88320
def defaultSeed : UInt32 := 0xFFFFFFFF

/-- What the loop over the bits of an entry does with each of them. -/
def crcShift (poly crc : UInt32) : UInt32 :=
  if crc &&& 1 = 1 then (crc >>> 1) ^^^ poly else crc >>> 1

def generateCRC32Table (poly : UInt32) : List UInt32 :=
  (List.range 256).map fun i => Nat.repeat (crcShift poly) 8 (UInt32.ofNat i)

namespace NSData

/-- What the loop over the bytes does with each of them. -/
def crcNext (pTable : List UInt32) (crc : UInt32) (byte : UInt8) : UInt32 :=
  (crc >>> 8) ^^^ pTable.getD ((crc &&& 0xFF) ^^^ byte.toUInt32).toNat 0

def crc32WithSeed (data : NSData) (seed poly : UInt32) : UInt32 :=
  data.foldl (crcNext (generateCRC32Table poly)) seed ^^^ 0xFFFFFFFF

def crc32 (data : NSData) : UInt32 := data.crc32WithSeed defaultSeed defaultPolynomial

end NSData
end SignalIOS
