import Nolibc.Arch.X86
import Nolibc.Crt
import Nolibc.Crt.Program
import Nolibc.Getopt.Reachable
import Nolibc.Getopt.Refinement
import Nolibc.Readdir.Listing
import Nolibc.Stdio.Buffers
import Nolibc.Stdio.EndOfFile
import Nolibc.Stdio.Fgets
import Nolibc.Stdio.FormatReading
import Nolibc.Stdio.RoundTrip
import Nolibc.Stdio.ScanEnds
import Nolibc.Stdio.WriteFailures
import Nolibc.Stdlib.Atol
import Nolibc.Stdlib.HeapCapacity
import Nolibc.Stdlib.HeapRefinement
import Nolibc.Stdlib.IntegerText
import Nolibc.Strings.Bounded
import Nolibc.Strings.Concat
import Nolibc.Strings.Order
import Nolibc.Strings.Search
import Nolibc.Strings.Truncation
import Nolibc.Sys.Brk
import Nolibc.Sys.Seek
import Nolibc.Sys.Select
import Nolibc.Sys.Stat
import Nolibc.Sys.Wait
import Nolibc.Time
import Nolibc.Types
