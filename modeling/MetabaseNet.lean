import MetabaseNet.Mtbase.Bytes
import MetabaseNet.Mtbase.ByteSwap
import MetabaseNet.Mtbase.Hex.Digits
import MetabaseNet.Mtbase.Hex.Encode
import MetabaseNet.Mtbase.Hex.EncodeMemory
import MetabaseNet.Mtbase.Hex.Decode
import MetabaseNet.Mtbase.Hex.DecodeMemory
import MetabaseNet.Mtbase.Hex.RoundTrip
import MetabaseNet.Mtbase.Hex.Reverse
import MetabaseNet.Mtbase.Hex.ReverseNumeric
import MetabaseNet.Mtbase.Hex.UIntToHex
import MetabaseNet.Mtbase.Hex.Numeric
import MetabaseNet.Mtbase.Hex.ByteOrder
import MetabaseNet.Mtbase.Hex.StringMemory
import MetabaseNet.Mtbase.Routable
import MetabaseNet.Blockchain.Entry
import MetabaseNet.Blockchain.Initialize
