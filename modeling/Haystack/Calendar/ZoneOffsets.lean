/-!
How far the local clocks of some zones are ahead of UTC.
-/
namespace Haystack

/-- For each zone the offset in seconds at the start of 1970, and the instants at which it changed,
in seconds since then, with the offset from each of them on. -/
def zoneOffsets : List (String × Int × List (Int × Int)) :=
  [("America/Argentina/Buenos_Aires", -10800,
    [(128142000, -7200), (136605600, -10800), (596948400, -7200), (605066400, -10800),
     (624423600, -7200), (636516000, -10800), (656478000, -7200), (667965600, -10800),
     (687927600, -7200), (699415200, -10800), (719377200, -7200), (731469600, -10800),
     (1198983600, -7200), (1205632800, -10800), (1224385200, -7200), (1237082400, -10800)]),
   ("America/Buenos_Aires", -10800,
    [(128142000, -7200), (136605600, -10800), (596948400, -7200), (605066400, -10800),
     (624423600, -7200), (636516000, -10800), (656478000, -7200), (667965600, -10800),
     (687927600, -7200), (699415200, -10800), (719377200, -7200), (731469600, -10800),
     (1198983600, -7200), (1205632800, -10800), (1224385200, -7200), (1237082400, -10800)]),
   ("America/New_York", -18000,
    [(9961200, -14400), (25682400, -18000), (41410800, -14400), (57736800, -18000),
     (73465200, -14400), (89186400, -18000), (104914800, -14400), (120636000, -18000),
     (126687600, -14400), (152085600, -18000), (162370800, -14400), (183535200, -18000),
     (199263600, -14400), (215589600, -18000), (230713200, -14400), (247039200, -18000),
     (262767600, -14400), (278488800, -18000), (294217200, -14400), (309938400, -18000),
     (325666800, -14400), (341388000, -18000), (357116400, -14400), (372837600, -18000),
     (388566000, -14400), (404892000, -18000), (420015600, -14400), (436341600, -18000),
     (452070000, -14400), (467791200, -18000), (483519600, -14400), (499240800, -18000),
     (514969200, -14400), (530690400, -18000), (544604400, -14400), (562140000, -18000),
     (576054000, -14400), (594194400, -18000), (607503600, -14400), (625644000, -18000),
     (638953200, -14400), (657093600, -18000), (671007600, -14400), (688543200, -18000),
     (702457200, -14400), (719992800, -18000), (733906800, -14400), (752047200, -18000),
     (765356400, -14400), (783496800, -18000), (796806000, -14400), (814946400, -18000),
     (828860400, -14400), (846396000, -18000), (860310000, -14400), (877845600, -18000),
     (891759600, -14400), (909295200, -18000), (923209200, -14400), (941349600, -18000),
     (954658800, -14400), (972799200, -18000), (986108400, -14400), (1004248800, -18000),
     (1018162800, -14400), (1035698400, -18000), (1049612400, -14400), (1067148000, -18000),
     (1081062000, -14400), (1099202400, -18000), (1112511600, -14400), (1130652000, -18000),
     (1143961200, -14400), (1162101600, -18000), (1173596400, -14400), (1194156000, -18000),
     (1205046000, -14400), (1225605600, -18000), (1236495600, -14400), (1257055200, -18000),
     (1268550000, -14400), (1289109600, -18000), (1299999600, -14400), (1320559200, -18000),
     (1331449200, -14400), (1352008800, -18000), (1362898800, -14400), (1383458400, -18000),
     (1394348400, -14400), (1414908000, -18000), (1425798000, -14400), (1446357600, -18000),
     (1457852400, -14400), (1478412000, -18000), (1489302000, -14400), (1509861600, -18000),
     (1520751600, -14400), (1541311200, -18000), (1552201200, -14400), (1572760800, -18000),
     (1583650800, -14400), (1604210400, -18000), (1615705200, -14400), (1636264800, -18000),
     (1647154800, -14400), (1667714400, -18000), (1678604400, -14400), (1699164000, -18000),
     (1710054000, -14400), (1730613600, -18000), (1741503600, -14400), (1762063200, -18000),
     (1772953200, -14400), (1793512800, -18000), (1805007600, -14400), (1825567200, -18000),
     (1836457200, -14400), (1857016800, -18000), (1867906800, -14400), (1888466400, -18000),
     (1899356400, -14400), (1919916000, -18000), (1930806000, -14400), (1951365600, -18000),
     (1962860400, -14400), (1983420000, -18000), (1994310000, -14400), (2014869600, -18000),
     (2025759600, -14400), (2046319200, -18000), (2057209200, -14400), (2077768800, -18000),
     (2088658800, -14400), (2109218400, -18000), (2120108400, -14400), (2140668000, -18000)]),
   ("America/North_Dakota/Beulah", -25200,
    [(9968400, -21600), (25689600, -25200), (41418000, -21600), (57744000, -25200),
     (73472400, -21600), (89193600, -25200), (104922000, -21600), (120643200, -25200),
     (126694800, -21600), (152092800, -25200), (162378000, -21600), (183542400, -25200),
     (199270800, -21600), (215596800, -25200), (230720400, -21600), (247046400, -25200),
     (262774800, -21600), (278496000, -25200), (294224400, -21600), (309945600, -25200),
     (325674000, -21600), (341395200, -25200), (357123600, -21600), (372844800, -25200),
     (388573200, -21600), (404899200, -25200), (420022800, -21600), (436348800, -25200),
     (452077200, -21600), (467798400, -25200), (483526800, -21600), (499248000, -25200),
     (514976400, -21600), (530697600, -25200), (544611600, -21600), (562147200, -25200),
     (576061200, -21600), (594201600, -25200), (607510800, -21600), (625651200, -25200),
     (638960400, -21600), (657100800, -25200), (671014800, -21600), (688550400, -25200),
     (702464400, -21600), (720000000, -25200), (733914000, -21600), (752054400, -25200),
     (765363600, -21600), (783504000, -25200), (796813200, -21600), (814953600, -25200),
     (828867600, -21600), (846403200, -25200), (860317200, -21600), (877852800, -25200),
     (891766800, -21600), (909302400, -25200), (923216400, -21600), (941356800, -25200),
     (954666000, -21600), (972806400, -25200), (986115600, -21600), (1004256000, -25200),
     (1018170000, -21600), (1035705600, -25200), (1049619600, -21600), (1067155200, -25200),
     (1081069200, -21600), (1099209600, -25200), (1112518800, -21600), (1130659200, -25200),
     (1143968400, -21600), (1162108800, -25200), (1173603600, -21600), (1194163200, -25200),
     (1205053200, -21600), (1225612800, -25200), (1236502800, -21600), (1257062400, -25200),
     (1268557200, -21600), (1300003200, -18000), (1320562800, -21600), (1331452800, -18000),
     (1352012400, -21600), (1362902400, -18000), (1383462000, -21600), (1394352000, -18000),
     (1414911600, -21600), (1425801600, -18000), (1446361200, -21600), (1457856000, -18000),
     (1478415600, -21600), (1489305600, -18000), (1509865200, -21600), (1520755200, -18000),
     (1541314800, -21600), (1552204800, -18000), (1572764400, -21600), (1583654400, -18000),
     (1604214000, -21600), (1615708800, -18000), (1636268400, -21600), (1647158400, -18000),
     (1667718000, -21600), (1678608000, -18000), (1699167600, -21600), (1710057600, -18000),
     (1730617200, -21600), (1741507200, -18000), (1762066800, -21600), (1772956800, -18000),
     (1793516400, -21600), (1805011200, -18000), (1825570800, -21600), (1836460800, -18000),
     (1857020400, -21600), (1867910400, -18000), (1888470000, -21600), (1899360000, -18000),
     (1919919600, -21600), (1930809600, -18000), (1951369200, -21600), (1962864000, -18000),
     (1983423600, -21600), (1994313600, -18000), (2014873200, -21600), (2025763200, -18000),
     (2046322800, -21600), (2057212800, -18000), (2077772400, -21600), (2088662400, -18000),
     (2109222000, -21600), (2120112000, -18000), (2140671600, -21600)]),
   ("America/Sao_Paulo", -10800,
    [(499748400, -7200), (511236000, -10800), (530593200, -7200), (540266400, -10800),
     (562129200, -7200), (571197600, -10800), (592974000, -7200), (602042400, -10800),
     (624423600, -7200), (634701600, -10800), (656478000, -7200), (666756000, -10800),
     (687927600, -7200), (697600800, -10800), (719982000, -7200), (728445600, -10800),
     (750826800, -7200), (761709600, -10800), (782276400, -7200), (793159200, -10800),
     (813726000, -7200), (824004000, -10800), (844570800, -7200), (856058400, -10800),
     (876106800, -7200), (888717600, -10800), (908074800, -7200), (919562400, -10800),
     (938919600, -7200), (951616800, -10800), (970974000, -7200), (982461600, -10800),
     (1003028400, -7200), (1013911200, -10800), (1036292400, -7200), (1045360800, -10800),
     (1066532400, -7200), (1076810400, -10800), (1099364400, -7200), (1108864800, -10800),
     (1129431600, -7200), (1140314400, -10800), (1162695600, -7200), (1172368800, -10800),
     (1192330800, -7200), (1203213600, -10800), (1224385200, -7200), (1234663200, -10800),
     (1255834800, -7200), (1266717600, -10800), (1287284400, -7200), (1298167200, -10800),
     (1318734000, -7200), (1330221600, -10800), (1350788400, -7200), (1361066400, -10800),
     (1382238000, -7200), (1392516000, -10800), (1413687600, -7200), (1424570400, -10800),
     (1445137200, -7200), (1456020000, -10800), (1476586800, -7200), (1487469600, -10800),
     (1508036400, -7200), (1518919200, -10800), (1541300400, -7200), (1550368800, -10800)]),
   ("Asia/Kathmandu", 19800,
    [(504901800, 20700)]),
   ("Asia/Kolkata", 19800, []),
   ("Australia/Lord_Howe", 36000,
    [(352216800, 37800), (372785400, 41400), (384273000, 37800), (404839800, 41400),
     (415722600, 37800), (436289400, 41400), (447172200, 37800), (467739000, 41400),
     (478621800, 37800), (499188600, 39600), (511282800, 37800), (530033400, 39600),
     (542732400, 37800), (562087800, 39600), (574786800, 37800), (594142200, 39600),
     (606236400, 37800), (625591800, 39600), (636476400, 37800), (657041400, 39600),
     (667926000, 37800), (688491000, 39600), (699375600, 37800), (719940600, 39600),
     (731430000, 37800), (751995000, 39600), (762879600, 37800), (783444600, 39600),
     (794329200, 37800), (814894200, 39600), (828198000, 37800), (846343800, 39600),
     (859647600, 37800), (877793400, 39600), (891097200, 37800), (909243000, 39600),
     (922546800, 37800), (941297400, 39600), (953996400, 37800), (967303800, 39600),
     (985446000, 37800), (1004196600, 39600), (1017500400, 37800), (1035646200, 39600),
     (1048950000, 37800), (1067095800, 39600), (1080399600, 37800), (1099150200, 39600),
     (1111849200, 37800), (1130599800, 39600), (1143903600, 37800), (1162049400, 39600),
     (1174748400, 37800), (1193499000, 39600), (1207407600, 37800), (1223134200, 39600),
     (1238857200, 37800), (1254583800, 39600), (1270306800, 37800), (1286033400, 39600),
     (1301756400, 37800), (1317483000, 39600), (1333206000, 37800), (1349537400, 39600),
     (1365260400, 37800), (1380987000, 39600), (1396710000, 37800), (1412436600, 39600),
     (1428159600, 37800), (1443886200, 39600), (1459609200, 37800), (1475335800, 39600),
     (1491058800, 37800), (1506785400, 39600), (1522508400, 37800), (1538839800, 39600),
     (1554562800, 37800), (1570289400, 39600), (1586012400, 37800), (1601739000, 39600),
     (1617462000, 37800), (1633188600, 39600), (1648911600, 37800), (1664638200, 39600),
     (1680361200, 37800), (1696087800, 39600), (1712415600, 37800), (1728142200, 39600),
     (1743865200, 37800), (1759591800, 39600), (1775314800, 37800), (1791041400, 39600),
     (1806764400, 37800), (1822491000, 39600), (1838214000, 37800), (1853940600, 39600),
     (1869663600, 37800), (1885995000, 39600), (1901718000, 37800), (1917444600, 39600),
     (1933167600, 37800), (1948894200, 39600), (1964617200, 37800), (1980343800, 39600),
     (1996066800, 37800), (2011793400, 39600), (2027516400, 37800), (2043243000, 39600),
     (2058966000, 37800), (2075297400, 39600), (2091020400, 37800), (2106747000, 39600),
     (2122470000, 37800), (2138196600, 39600)]),
   ("Europe/London", 3600,
    [(57722400, 0), (69818400, 3600), (89172000, 0), (101268000, 3600), (120621600, 0),
     (132717600, 3600), (152071200, 0), (164167200, 3600), (183520800, 0), (196221600, 3600),
     (214970400, 0), (227671200, 3600), (246420000, 0), (259120800, 3600), (278474400, 0),
     (290570400, 3600), (309924000, 0), (322020000, 3600), (341373600, 0), (354675600, 3600),
     (372819600, 0), (386125200, 3600), (404269200, 0), (417574800, 3600), (435718800, 0),
     (449024400, 3600), (467773200, 0), (481078800, 3600), (499222800, 0), (512528400, 3600),
     (530672400, 0), (543978000, 3600), (562122000, 0), (575427600, 3600), (593571600, 0),
     (606877200, 3600), (625626000, 0), (638326800, 3600), (657075600, 0), (670381200, 3600),
     (688525200, 0), (701830800, 3600), (719974800, 0), (733280400, 3600), (751424400, 0),
     (764730000, 3600), (782874000, 0), (796179600, 3600), (814323600, 0), (828234000, 3600),
     (846378000, 0), (859683600, 3600), (877827600, 0), (891133200, 3600), (909277200, 0),
     (922582800, 3600), (941331600, 0), (954032400, 3600), (972781200, 0), (985482000, 3600),
     (1004230800, 0), (1017536400, 3600), (1035680400, 0), (1048986000, 3600), (1067130000, 0),
     (1080435600, 3600), (1099184400, 0), (1111885200, 3600), (1130634000, 0), (1143334800, 3600),
     (1162083600, 0), (1174784400, 3600), (1193533200, 0), (1206838800, 3600), (1224982800, 0),
     (1238288400, 3600), (1256432400, 0), (1269738000, 3600), (1288486800, 0), (1301187600, 3600),
     (1319936400, 0), (1332637200, 3600), (1351386000, 0), (1364691600, 3600), (1382835600, 0),
     (1396141200, 3600), (1414285200, 0), (1427590800, 3600), (1445734800, 0), (1459040400, 3600),
     (1477789200, 0), (1490490000, 3600), (1509238800, 0), (1521939600, 3600), (1540688400, 0),
     (1553994000, 3600), (1572138000, 0), (1585443600, 3600), (1603587600, 0), (1616893200, 3600),
     (1635642000, 0), (1648342800, 3600), (1667091600, 0), (1679792400, 3600), (1698541200, 0),
     (1711846800, 3600), (1729990800, 0), (1743296400, 3600), (1761440400, 0), (1774746000, 3600),
     (1792890000, 0), (1806195600, 3600), (1824944400, 0), (1837645200, 3600), (1856394000, 0),
     (1869094800, 3600), (1887843600, 0), (1901149200, 3600), (1919293200, 0), (1932598800, 3600),
     (1950742800, 0), (1964048400, 3600), (1982797200, 0), (1995498000, 3600), (2014246800, 0),
     (2026947600, 3600), (2045696400, 0), (2058397200, 3600), (2077146000, 0), (2090451600, 3600),
     (2108595600, 0), (2121901200, 3600), (2140045200, 0)]),
   ("Europe/Paris", 3600,
    [(196819200, 7200), (212540400, 3600), (228877200, 7200), (243997200, 3600), (260326800, 7200),
     (276051600, 3600), (291776400, 7200), (307501200, 3600), (323830800, 7200), (338950800, 3600),
     (354675600, 7200), (370400400, 3600), (386125200, 7200), (401850000, 3600), (417574800, 7200),
     (433299600, 3600), (449024400, 7200), (465354000, 3600), (481078800, 7200), (496803600, 3600),
     (512528400, 7200), (528253200, 3600), (543978000, 7200), (559702800, 3600), (575427600, 7200),
     (591152400, 3600), (606877200, 7200), (622602000, 3600), (638326800, 7200), (654656400, 3600),
     (670381200, 7200), (686106000, 3600), (701830800, 7200), (717555600, 3600), (733280400, 7200),
     (749005200, 3600), (764730000, 7200), (780454800, 3600), (796179600, 7200), (811904400, 3600),
     (828234000, 7200), (846378000, 3600), (859683600, 7200), (877827600, 3600), (891133200, 7200),
     (909277200, 3600), (922582800, 7200), (941331600, 3600), (954032400, 7200), (972781200, 3600),
     (985482000, 7200), (1004230800, 3600), (1017536400, 7200), (1035680400, 3600),
     (1048986000, 7200), (1067130000, 3600), (1080435600, 7200), (1099184400, 3600),
     (1111885200, 7200), (1130634000, 3600), (1143334800, 7200), (1162083600, 3600),
     (1174784400, 7200), (1193533200, 3600), (1206838800, 7200), (1224982800, 3600),
     (1238288400, 7200), (1256432400, 3600), (1269738000, 7200), (1288486800, 3600),
     (1301187600, 7200), (1319936400, 3600), (1332637200, 7200), (1351386000, 3600),
     (1364691600, 7200), (1382835600, 3600), (1396141200, 7200), (1414285200, 3600),
     (1427590800, 7200), (1445734800, 3600), (1459040400, 7200), (1477789200, 3600),
     (1490490000, 7200), (1509238800, 3600), (1521939600, 7200), (1540688400, 3600),
     (1553994000, 7200), (1572138000, 3600), (1585443600, 7200), (1603587600, 3600),
     (1616893200, 7200), (1635642000, 3600), (1648342800, 7200), (1667091600, 3600),
     (1679792400, 7200), (1698541200, 3600), (1711846800, 7200), (1729990800, 3600),
     (1743296400, 7200), (1761440400, 3600), (1774746000, 7200), (1792890000, 3600),
     (1806195600, 7200), (1824944400, 3600), (1837645200, 7200), (1856394000, 3600),
     (1869094800, 7200), (1887843600, 3600), (1901149200, 7200), (1919293200, 3600),
     (1932598800, 7200), (1950742800, 3600), (1964048400, 7200), (1982797200, 3600),
     (1995498000, 7200), (2014246800, 3600), (2026947600, 7200), (2045696400, 3600),
     (2058397200, 7200), (2077146000, 3600), (2090451600, 7200), (2108595600, 3600),
     (2121901200, 7200), (2140045200, 3600)]),
   ("Pacific/Apia", -39600,
    [(1285498800, -36000), (1301752800, -39600), (1316872800, -36000), (1325239200, 50400),
     (1333202400, 46800), (1348927200, 50400), (1365256800, 46800), (1380376800, 50400),
     (1396706400, 46800), (1411826400, 50400), (1428156000, 46800), (1443276000, 50400),
     (1459605600, 46800), (1474725600, 50400), (1491055200, 46800), (1506175200, 50400),
     (1522504800, 46800), (1538229600, 50400), (1554559200, 46800), (1569679200, 50400),
     (1586008800, 46800), (1601128800, 50400), (1617458400, 46800)])]

end Haystack
